import Mathlib.Data.List.DropRight
import Mathlib.Data.List.Sort
import MiniShell.Completion
import MiniShell.Proofs.Decoding

namespace MiniShell
namespace Completion

/-!
# What a word is completed to

The cursor cuts a line so that nothing typed is lost: the word reaches from the
last space to the cursor, and every replacement starts with it.

The candidates are gathered in the order of the command names or of the listing,
as often as a name occurs there.  Sorting brings candidates with one display
together, so dropping every repeat of a neighbour leaves each display once, and
the displays ascend strictly.  Whether a candidate is the only one is decided
after that.

In a directory a name belongs to one entry.  Then a strictly ascending list is
determined by its members, and neither the order of what is gathered nor the
number of its occurrences can be seen in the result.
-/

/-! ## The word at a cursor -/

/-- The cursor at the end of a text: it cuts the text behind the last space. -/
structure Cursor.EndsAt (cursor : Cursor) (front : Text) : Prop where
  parts : cursor.before ++ cursor.word = front
  /-- The start of the word is a place between two characters. -/
  cut : Utf8.cut? front cursor.start = some (cursor.before, cursor.word)
  start_le : cursor.start ≤ (Utf8.encode front).length
  afterSpace : cursor.before = [] ∨ cursor.before.getLast? = some ' '
  noSpace : ' ' ∉ cursor.word

/-- Every place between two characters has a cursor. -/
theorem Cursor.exists_at? (front back : Text) :
    exists cursor, at? (front ++ back) (Utf8.encode front).length = some cursor ∧
      cursor.EndsAt front := by
  let isInWord := fun c : Char => c != ' '
  let cursor : Cursor := ⟨front.rdropWhile isInWord, front.rtakeWhile isInWord⟩
  have parts : cursor.before ++ cursor.word = front := List.rdropWhile_append_rtakeWhile
  refine ⟨cursor, ?_, parts, ?_, ?_, ?_, ?_⟩
  · rw [at?, Utf8.cut?_append]
    rfl
  · rw [← parts]
    exact Utf8.cut?_append cursor.before cursor.word
  · rw [start, ← parts, Utf8.encode_append, List.length_append]
    exact Nat.le_add_right _ _
  · rcases List.eq_nil_or_concat' cursor.before with empty | ⟨rest, c, same⟩
    · exact .inl empty
    · have nonempty : cursor.before ≠ [] := by
        rw [same]
        exact List.append_ne_nil_of_right_ne_nil _ (List.cons_ne_nil _ _)
      have last : cursor.before.getLast nonempty = ' ' := by
        have stops := List.rdropWhile_last_not isInWord front nonempty
        rwa [bne_iff_ne, not_not] at stops
      exact .inr (last ▸ List.getLast?_eq_some_getLast nonempty)
  · intro member
    have inWord : isInWord ' ' = true := List.mem_rtakeWhile_imp member
    cases inWord

/-! ## What is gathered -/

/-- What a word may be completed to before it is known whether there is anything else: a
command name in the first word of a line, an entry of the listing in any other. -/
inductive Offer (commands : List Text) (listing : Option (List Entry)) (cursor : Cursor) :
    Candidate -> Prop where
  | command {name : Text} (first : cursor.before.all Blank.isBlank = true)
      (known : name ∈ commands) (typed : cursor.word <+: name) :
      Offer commands listing cursor ⟨name, name⟩
  | entry {name : Text} {isDirectory : Bool} (later : cursor.before.all Blank.isBlank = false)
      (listed : ⟨Utf8.encode name, isDirectory⟩ ∈ listing.getD [])
      (typed : cursor.word <+: name) :
      Offer commands listing cursor ⟨name, name ++ if isDirectory then ['/'] else []⟩

variable {commands : List Text} {listing : Option (List Entry)} {cursor : Cursor}
  {candidate first second : Candidate} {found : List Candidate}

theorem mem_commandCandidates {word : Text} :
    candidate ∈ commandCandidates commands word ↔
      exists name, name ∈ commands ∧ word <+: name ∧ candidate = ⟨name, name⟩ := by
  rw [commandCandidates, List.mem_map]
  apply exists_congr
  intro name
  rw [List.mem_filter, List.isPrefixOf_iff_prefix, and_assoc, eq_comm (b := candidate)]

theorem entryCandidate?_eq_some_iff {word : Text} {entry : Entry} :
    entryCandidate? word entry = some candidate ↔
      exists name, entry.name = Utf8.encode name ∧ word <+: name ∧
        candidate = ⟨name, name ++ if entry.isDirectory then ['/'] else []⟩ := by
  rw [entryCandidate?, Option.bind_eq_some_iff]
  apply exists_congr
  intro name
  rw [Utf8.decode?_eq_some_iff, eq_comm (a := Utf8.encode name)]
  apply and_congr_right
  intro _
  rw [Option.ite_none_right_eq_some, List.isPrefixOf_iff_prefix, Option.some.injEq,
    eq_comm (b := candidate)]
  cases entry.isDirectory
  · simp only [Bool.false_eq_true, if_false, List.append_nil]
  · simp only [if_true]

/-- The candidates before they are sorted, as often as they come up. -/
def gathered (commands : List Text) (listing : Option (List Entry)) (cursor : Cursor) :
    List Candidate :=
  if cursor.before.all Blank.isBlank then commandCandidates commands cursor.word
  else (listing.getD []).filterMap (entryCandidate? cursor.word)

theorem mem_gathered_iff :
    candidate ∈ gathered commands listing cursor ↔ Offer commands listing cursor candidate := by
  rw [gathered]
  cases position : cursor.before.all Blank.isBlank with
  | true =>
      rw [if_pos rfl, mem_commandCandidates]
      constructor
      · rintro ⟨name, known, typed, rfl⟩
        exact .command position known typed
      · intro offer
        cases offer with
        | command _ known typed => exact ⟨_, known, typed, rfl⟩
        | entry later _ _ =>
            rw [position] at later
            cases later
  | false =>
      rw [if_neg Bool.false_ne_true, List.mem_filterMap]
      simp only [entryCandidate?_eq_some_iff]
      constructor
      · rintro ⟨⟨_, isDirectory⟩, listed, name, rfl, typed, rfl⟩
        exact .entry position listed typed
      · intro offer
        cases offer with
        | command first _ _ =>
            rw [position] at first
            cases first
        | entry _ listed typed => exact ⟨_, listed, _, rfl, typed, rfl⟩

theorem Offer.typed (offer : Offer commands listing cursor candidate) :
    cursor.word <+: candidate.replacement := by
  cases offer with
  | command _ _ typed => exact typed
  | entry _ _ typed => exact typed.trans (List.prefix_append _ _)

/-! ## Sorting and dropping -/

/-- The display of the first candidate comes before the display of the second. -/
def Before (first second : Candidate) : Prop :=
  Utf8.encode first.display < Utf8.encode second.display

instance : Std.Irrefl Before where
  irrefl _ := List.lt_irrefl _

instance : Std.Antisymm Before where
  antisymm _ _ before after := absurd after (List.lt_asymm before)

theorem before_of_precedes (notLater : precedes first second = true)
    (different : first.display ≠ second.display) : Before first second := by
  rcases List.le_iff_lt_or_eq.mp (of_decide_eq_true notLater) with before | same
  · exact before
  · exact absurd (Utf8.encode_inj.mp same) different

theorem Before.trans_precedes {third : Candidate} (before : Before first second)
    (notLater : precedes second third = true) : Before first third := by
  rcases List.le_iff_lt_or_eq.mp (of_decide_eq_true notLater) with after | same
  · exact List.lt_trans before after
  · exact lt_of_lt_of_eq before same

theorem precedes_trans (first second third : Candidate) (notLater : precedes first second = true)
    (notLater' : precedes second third = true) : precedes first third = true :=
  decide_eq_true (List.le_trans (of_decide_eq_true notLater) (of_decide_eq_true notLater'))

theorem precedes_total (first second : Candidate) :
    (precedes first second || precedes second first) = true := by
  rw [Bool.or_eq_true, precedes, precedes, decide_eq_true_eq, decide_eq_true_eq]
  exact List.le_total _ _

theorem sorted_mergeSort (found : List Candidate) :
    (found.mergeSort precedes).Pairwise fun first second => precedes first second = true :=
  List.pairwise_mergeSort precedes_trans precedes_total found

theorem mem_of_mem_dropRepeats (kept : candidate ∈ dropRepeats found) : candidate ∈ found := by
  induction found using dropRepeats.induct with
  | case1 => rwa [dropRepeats] at kept
  | case2 => rwa [dropRepeats] at kept
  | case3 first second rest same ih =>
      rw [dropRepeats, if_pos same] at kept
      rcases List.mem_cons.mp (ih kept) with isFirst | later
      · exact List.mem_cons.mpr (.inl isFirst)
      · exact List.mem_cons_of_mem _ (List.mem_cons_of_mem _ later)
  | case4 first second rest different ih =>
      rw [dropRepeats, if_neg different] at kept
      rcases List.mem_cons.mp kept with isFirst | later
      · exact List.mem_cons.mpr (.inl isFirst)
      · exact List.mem_cons_of_mem _ (ih later)

/-- No display is lost with its repeats. -/
theorem exists_mem_dropRepeats (member : candidate ∈ found) :
    exists kept, kept ∈ dropRepeats found ∧ kept.display = candidate.display := by
  induction found using dropRepeats.induct generalizing candidate with
  | case1 => cases member
  | case2 only =>
      rw [dropRepeats]
      exact ⟨candidate, member, rfl⟩
  | case3 first second rest same ih =>
      rw [dropRepeats, if_pos same]
      rcases List.mem_cons.mp member with rfl | member
      · exact ih List.mem_cons_self
      · rcases List.mem_cons.mp member with rfl | later
        · -- This one is dropped, and the first stands for it.
          rw [← same]
          exact ih List.mem_cons_self
        · exact ih (List.mem_cons_of_mem _ later)
  | case4 first second rest different ih =>
      rw [dropRepeats, if_neg different]
      rcases List.mem_cons.mp member with rfl | later
      · exact ⟨_, List.mem_cons_self, rfl⟩
      · rcases ih later with ⟨kept, kept_mem, same⟩
        exact ⟨kept, List.mem_cons_of_mem _ kept_mem, same⟩

/-- In a sorted list all repeats are neighbours, so none is left. -/
theorem ascending_dropRepeats
    (sorted : found.Pairwise fun first second => precedes first second = true) :
    (dropRepeats found).Pairwise Before := by
  induction found using dropRepeats.induct with
  | case1 =>
      rw [dropRepeats]
      exact .nil
  | case2 only =>
      rw [dropRepeats]
      exact List.pairwise_singleton _ _
  | case3 first second rest same ih =>
      rw [dropRepeats, if_pos same]
      exact ih (sorted.sublist (List.Sublist.cons_cons _ (List.sublist_cons_self _ _)))
  | case4 first second rest different ih =>
      rw [dropRepeats, if_neg different]
      rcases List.pairwise_cons.mp sorted with ⟨notLater, sortedRest⟩
      have before := before_of_precedes (notLater second List.mem_cons_self) different
      refine List.pairwise_cons.mpr ⟨?_, ih sortedRest⟩
      intro candidate kept
      rcases List.mem_cons.mp (mem_of_mem_dropRepeats kept) with rfl | later
      · exact before
      · exact before.trans_precedes ((List.pairwise_cons.mp sortedRest).1 candidate later)

/-! ## The end of a single candidate -/

/-- What is put behind a replacement, by the number of candidates. -/
def ending (count : Nat) (replacement : Text) : Text :=
  if count = 1 ∧ replacement.getLast? ≠ some '/' then [' '] else []

theorem endSingle_eq_map (found : List Candidate) :
    endSingle found = found.map fun candidate =>
      ⟨candidate.display, candidate.replacement ++ ending found.length candidate.replacement⟩ := by
  rcases found with _ | ⟨⟨display, replacement⟩, _ | ⟨second, rest⟩⟩
  · rfl
  · rw [endSingle, List.map_singleton, ending]
    by_cases slash : replacement.getLast? = some '/'
    · rw [if_pos slash, if_neg (not_and_not_right.mpr fun _ => slash), List.append_nil]
    · rw [if_neg slash, if_pos ⟨rfl, slash⟩]
  · have several : (⟨display, replacement⟩ :: second :: rest : List Candidate).length ≠ 1 :=
      Nat.succ_succ_ne_one _
    have unended : forall text, ending (⟨display, replacement⟩ :: second :: rest :
        List Candidate).length text = [] := fun text => if_neg (mt And.left several)
    simp only [endSingle, unended, List.append_nil, List.map_id']

/-! ## The candidates -/

/-- The different candidates in their order, without what a single one is ended with. -/
def distinct (commands : List Text) (listing : Option (List Entry)) (cursor : Cursor) :
    List Candidate :=
  dropRepeats ((gathered commands listing cursor).mergeSort precedes)

theorem candidates_eq_map (commands : List Text) (listing : Option (List Entry))
    (cursor : Cursor) :
    candidates commands listing cursor =
      (distinct commands listing cursor).map fun candidate =>
        ⟨candidate.display, candidate.replacement ++
          ending (distinct commands listing cursor).length candidate.replacement⟩ :=
  endSingle_eq_map _

theorem ascending_distinct (commands : List Text) (listing : Option (List Entry))
    (cursor : Cursor) : (distinct commands listing cursor).Pairwise Before :=
  ascending_dropRepeats (sorted_mergeSort _)

theorem offer_of_mem_distinct (member : candidate ∈ distinct commands listing cursor) :
    Offer commands listing cursor candidate :=
  mem_gathered_iff.mp (List.mem_mergeSort.mp (mem_of_mem_dropRepeats member))

theorem exists_mem_distinct (offer : Offer commands listing cursor candidate) :
    exists kept, kept ∈ distinct commands listing cursor ∧ kept.display = candidate.display :=
  exists_mem_dropRepeats (List.mem_mergeSort.mpr (mem_gathered_iff.mpr offer))

/-- What the candidates at a cursor are: each display that is offered, once and in the order
of bytes, with the replacement that is offered for it. -/
structure Completes (commands : List Text) (listing : Option (List Entry)) (cursor : Cursor)
    (found : List Candidate) : Prop where
  ascending : found.Pairwise fun first second =>
    Utf8.encode first.display < Utf8.encode second.display
  displays : forall name, (exists candidate, candidate ∈ found ∧ candidate.display = name) ↔
    exists replacement, Offer commands listing cursor ⟨name, replacement⟩
  /-- A space is put behind a replacement if there is no other and it does not end in a
  slash. -/
  replacements : forall candidate, candidate ∈ found -> exists offered,
    Offer commands listing cursor ⟨candidate.display, offered⟩ ∧
      candidate.replacement = offered ++
        if found.length = 1 ∧ offered.getLast? ≠ some '/' then [' '] else []
  keepsWord : forall candidate, candidate ∈ found -> cursor.word <+: candidate.replacement

theorem completes_candidates (commands : List Text) (listing : Option (List Entry))
    (cursor : Cursor) :
    Completes commands listing cursor (candidates commands listing cursor) := by
  rw [candidates_eq_map]
  constructor
  · exact List.pairwise_map.mpr (ascending_distinct commands listing cursor)
  · intro name
    constructor
    · rintro ⟨_, member, rfl⟩
      rcases List.mem_map.mp member with ⟨candidate, kept, rfl⟩
      exact ⟨candidate.replacement, offer_of_mem_distinct kept⟩
    · rintro ⟨replacement, offer⟩
      rcases exists_mem_distinct offer with ⟨kept, member, same⟩
      exact ⟨_, List.mem_map_of_mem member, same⟩
  · intro _ member
    rcases List.mem_map.mp member with ⟨candidate, kept, rfl⟩
    rw [List.length_map]
    exact ⟨candidate.replacement, offer_of_mem_distinct kept, rfl⟩
  · intro _ member
    rcases List.mem_map.mp member with ⟨candidate, kept, rfl⟩
    exact (offer_of_mem_distinct kept).typed.trans (List.prefix_append _ _)

/-! ## What the candidates depend on -/

/-- A name belongs to one entry. -/
def NamesOnce (listing : Option (List Entry)) : Prop :=
  forall first, first ∈ listing.getD [] -> forall second, second ∈ listing.getD [] ->
    first.name = second.name -> first = second

theorem Offer.eq_of_display_eq (once : NamesOnce listing)
    (offer : Offer commands listing cursor first) (other : Offer commands listing cursor second)
    (same : first.display = second.display) : first = second := by
  cases offer with
  | command isFirst _ _ =>
      cases other with
      | command _ _ _ =>
          cases same
          rfl
      | entry later _ _ =>
          rw [isFirst] at later
          cases later
  | entry later listed _ =>
      cases other with
      | command isFirst _ _ =>
          rw [isFirst] at later
          cases later
      | entry _ listed' _ =>
          cases same
          cases once _ listed _ listed' rfl
          rfl

theorem mem_distinct_iff (once : NamesOnce listing) :
    candidate ∈ distinct commands listing cursor ↔ Offer commands listing cursor candidate := by
  constructor
  · exact offer_of_mem_distinct
  · intro offer
    -- Only the display is known to be kept, and it determines the rest.
    rcases exists_mem_distinct offer with ⟨kept, member, same⟩
    rwa [← Offer.eq_of_display_eq once (offer_of_mem_distinct member) offer same]

theorem Offer.of_same_members {commands' : List Text} {listing' : Option (List Entry)}
    (sameCommands : forall name, name ∈ commands -> name ∈ commands')
    (sameEntries : forall entry, entry ∈ listing.getD [] -> entry ∈ listing'.getD [])
    (offer : Offer commands listing cursor candidate) :
    Offer commands' listing' cursor candidate := by
  cases offer with
  | command first known typed => exact .command first (sameCommands _ known) typed
  | entry later listed typed => exact .entry later (sameEntries _ listed) typed

theorem candidates_eq_of_same_members {commands' : List Text} {listing' : Option (List Entry)}
    (once : NamesOnce listing) (sameCommands : forall name, name ∈ commands ↔ name ∈ commands')
    (sameEntries : forall entry, entry ∈ listing.getD [] ↔ entry ∈ listing'.getD []) :
    candidates commands listing cursor = candidates commands' listing' cursor := by
  have once' : NamesOnce listing' := by
    intro first listed second listed'
    exact once first ((sameEntries _).mpr listed) second ((sameEntries _).mpr listed')
  have same : distinct commands listing cursor = distinct commands' listing' cursor := by
    apply (ascending_distinct _ _ _).eq_of_mem_iff (ascending_distinct _ _ _)
    intro candidate
    rw [mem_distinct_iff once, mem_distinct_iff once']
    constructor
    · exact Offer.of_same_members (fun name => (sameCommands name).mp)
        fun entry => (sameEntries entry).mp
    · exact Offer.of_same_members (fun name => (sameCommands name).mpr)
        fun entry => (sameEntries entry).mpr
  rw [candidates_eq_map, candidates_eq_map, same]

/-- Completion at any place between two characters of a line, with any command names and any
listing of the tracked directory (or none).  The word that is completed is what stands between
the last space and this place.  The candidates are what is offered for it, each once and in the
order of bytes.  If no two entries share a name, they depend on nothing but which names are
there and which of them are directories. -/
theorem completes_exactly (commands : List Text) (listing : Option (List Entry))
    (front back : Text) :
    exists cursor, Cursor.at? (front ++ back) (Utf8.encode front).length = some cursor ∧
      cursor.EndsAt front ∧
      Completes commands listing cursor (candidates commands listing cursor) ∧
      forall commands' listing', NamesOnce listing ->
        (forall name, name ∈ commands ↔ name ∈ commands') ->
        (forall entry, entry ∈ listing.getD [] ↔ entry ∈ listing'.getD []) ->
        candidates commands listing cursor = candidates commands' listing' cursor := by
  rcases Cursor.exists_at? front back with ⟨cursor, stands, ends⟩
  refine ⟨cursor, stands, ends, completes_candidates commands listing cursor, ?_⟩
  intro commands' listing' once sameCommands sameEntries
  exact candidates_eq_of_same_members once sameCommands sameEntries

/-- A listing in which a directory comes up twice, and the same listing in another order. -/
theorem completes_repeated_entries :
    let commands := ["cat".toList, "echo".toList]
    let commands' := ["echo".toList, "cat".toList, "echo".toList]
    let listing := some [⟨Utf8.encode "ab".toList, false⟩, ⟨Utf8.encode "é".toList, false⟩,
      ⟨Utf8.encode "a".toList, true⟩]
    let listing' := some [⟨Utf8.encode "a".toList, true⟩, ⟨Utf8.encode "é".toList, false⟩,
      ⟨Utf8.encode "ab".toList, false⟩, ⟨Utf8.encode "a".toList, true⟩]
    let cursor : Cursor := ⟨"cat é ".toList, "a".toList⟩
    NamesOnce listing ∧ (forall name, name ∈ commands ↔ name ∈ commands') ∧
      (forall entry, entry ∈ listing.getD [] ↔ entry ∈ listing'.getD []) ∧
      Cursor.at? "cat é a; b".toList 8 = some cursor ∧
      candidates commands listing cursor = candidates commands' listing' cursor ∧
      candidates commands listing cursor =
        [⟨"a".toList, "a/".toList⟩, ⟨"ab".toList, "ab".toList⟩] := by
  intro commands commands' listing listing' cursor
  have once : NamesOnce listing := by
    unfold NamesOnce
    decide
  have sameCommands : forall name, name ∈ commands ↔ name ∈ commands' := by
    simp only [commands, commands', List.mem_cons, List.not_mem_nil]
    tauto
  have sameEntries : forall entry, entry ∈ listing.getD [] ↔ entry ∈ listing'.getD [] := by
    simp only [listing, listing', Option.getD_some, List.mem_cons, List.not_mem_nil]
    tauto
  rcases completes_exactly commands listing "cat é a".toList "; b".toList with
    ⟨found, stands, _, _, independent⟩
  have same : Cursor.at? "cat é a; b".toList 8 = some cursor := by decide
  cases stands.symm.trans same
  have all : gathered commands listing cursor =
      [⟨"ab".toList, "ab".toList⟩, ⟨"a".toList, "a/".toList⟩] := by
    simp only [gathered, listing, Option.getD_some, List.filterMap_cons, entryCandidate?,
      Utf8.decode?_encode]
    rfl
  have sorted : distinct commands listing cursor =
      [⟨"a".toList, "a/".toList⟩, ⟨"ab".toList, "ab".toList⟩] := by
    apply (ascending_distinct _ _ _).eq_of_mem_iff
    · exact List.pairwise_pair.mpr (show Utf8.encode _ < Utf8.encode _ by decide)
    · intro candidate
      rw [mem_distinct_iff once, ← mem_gathered_iff, all, List.mem_pair, List.mem_pair, or_comm]
  have result : candidates commands listing cursor =
      [⟨"a".toList, "a/".toList⟩, ⟨"ab".toList, "ab".toList⟩] := by
    rw [candidates_eq_map, sorted]
    rfl
  exact ⟨once, sameCommands, sameEntries, same,
    independent commands' listing' once sameCommands sameEntries, result⟩

end Completion
end MiniShell
