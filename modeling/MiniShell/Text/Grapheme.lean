import MiniShell.Text.GraphemeBreak

namespace MiniShell
namespace Grapheme

/-!
# User-perceived characters

A text falls into extended grapheme clusters.  Whether a cluster goes on after
a character depends on that character, on the next one, and on three things
that have been seen in the cluster: the parity of a run of regional indicators,
a pictograph that waits for its joiner, and a consonant that waits for its
linker.  `Seen` holds exactly that, so clusters are found in one pass.

Erasing works on clusters: a backspace character takes away the cluster before
it, and nothing if there is none.  The editor remembers the size of each cluster
in a counter of eight bits.  Of a very long cluster it therefore erases too few
bytes, and it fails where a character would be erased in part.
-/

open GraphemeBreak

/-- How far two things that are to be connected have come. -/
inductive Bond where
  | none
  /-- There is a first thing, and nothing that connects it yet. -/
  | started
  /-- The connection has been made, and the second thing may follow. -/
  | ready
  deriving DecidableEq, Repr

/-- What has been seen of the open cluster, up to its last character. -/
structure Seen where
  last : BreakClass
  /-- Is the number of regional indicators at the end of the cluster odd? -/
  oddIndicators : Bool
  pictographs : Bond
  consonants : Bond
  deriving DecidableEq, Repr

namespace Seen

/-- A cluster of which only its first character has been seen. -/
def start (c : Char) : Seen where
  last := classOf c
  oddIndicators := classOf c == .regionalIndicator
  pictographs := if isPictograph c then .started else .none
  consonants := if isLinkedConsonant c then .started else .none

def pictographsAfter (seen : Seen) (c : Char) : Bond :=
  if isPictograph c then .started
  else
    match seen.pictographs, classOf c with
    | .started, .extend => .started
    | .started, .joiner => .ready
    | _, _ => .none

/-- The consonants of a cluster after one more character.  The non-joiner is an
extending character that breaks the connection. -/
def consonantsAfter (seen : Seen) (c : Char) : Bond :=
  if isLinkedConsonant c then .started
  else if seen.consonants = .none then .none
  else if isLinker c then .ready
  else if (classOf c = .extend ∨ classOf c = .joiner) ∧ c.toNat ≠ 0x200C then
    seen.consonants
  else .none

def extend (seen : Seen) (c : Char) : Seen where
  last := classOf c
  oddIndicators := classOf c == .regionalIndicator && !seen.oddIndicators
  pictographs := seen.pictographsAfter c
  consonants := seen.consonantsAfter c

/-- Does a character of this class never join another? -/
def standsAlone (kind : BreakClass) : Bool :=
  kind == .carriageReturn || kind == .lineFeed || kind == .control

/-- Do two classes of Hangul letters and syllables belong together? -/
def composes : BreakClass -> BreakClass -> Bool
  | .leadingJamo, .leadingJamo | .leadingJamo, .vowelJamo
  | .leadingJamo, .openSyllable | .leadingJamo, .closedSyllable => true
  | .openSyllable, .vowelJamo | .openSyllable, .trailingJamo
  | .vowelJamo, .vowelJamo | .vowelJamo, .trailingJamo => true
  | .closedSyllable, .trailingJamo | .trailingJamo, .trailingJamo => true
  | _, _ => false

def joins (seen : Seen) (c : Char) : Bool :=
  let kind := classOf c
  if seen.last = .carriageReturn ∧ kind = .lineFeed then true
  else if standsAlone seen.last || standsAlone kind then false
  else composes seen.last kind
    || kind == .extend || kind == .joiner || kind == .spacingMark
    || seen.last == .prepended
    || (seen.consonants == .ready && isLinkedConsonant c)
    || (seen.pictographs == .ready && isPictograph c)
    || (seen.oddIndicators && kind == .regionalIndicator)

end Seen

/-- The clusters of a text whose first characters, latest first, have already
been put into an open cluster. -/
def clustersFrom (seen : Seen) (opened : Text) : Text -> List Text
  | [] => [opened.reverse]
  | c :: text =>
      if seen.joins c then clustersFrom (seen.extend c) (c :: opened) text
      else opened.reverse :: clustersFrom (Seen.start c) [c] text

def clusters : Text -> List Text
  | [] => []
  | c :: text => clustersFrom (Seen.start c) [c] text

/-- The character that erases the cluster before it. -/
def backspace : Char := '\x08'

/-- How many bytes a backspace takes away for a cluster: its size, as far as the
counter goes. -/
def erasedSize (cluster : Text) : Nat :=
  (Utf8.encode cluster).length % 256

structure Typed where
  /-- The text so far, its last character first. -/
  reversed : Text := []
  /-- The sizes of its clusters, the last one first. -/
  sizes : List Nat := []
  deriving DecidableEq, Repr

/-- Type one more cluster.  There is no result if erasing would leave a part of a
character. -/
def Typed.add? (typed : Typed) (cluster : Text) : Option Typed :=
  if cluster = [backspace] then
    match typed.sizes with
    | [] => some typed
    | size :: sizes =>
        (Utf8.cut? typed.reversed size).map fun parts => ⟨parts.2, sizes⟩
  else some ⟨cluster.reverse ++ typed.reversed, erasedSize cluster :: typed.sizes⟩

/-- The text that remains when every backspace has erased what stands before it. -/
def applyBackspaces? (text : Text) : Option Text :=
  ((clusters text).foldlM Typed.add? {}).map fun typed => typed.reversed.reverse

/-- Clusters only cut a text, and lose nothing of it. -/
theorem flatten_clustersFrom (seen : Seen) (opened text : Text) :
    (clustersFrom seen opened text).flatten = opened.reverse ++ text := by
  induction text generalizing seen opened with
  | nil => simp [clustersFrom]
  | cons c text ih =>
      simp only [clustersFrom]
      split
      · simp [ih]
      · simp [ih]

theorem flatten_clusters (text : Text) : (clusters text).flatten = text := by
  cases text with
  | nil => rfl
  | cons c text => simp [clusters, flatten_clustersFrom]

end Grapheme
end MiniShell
