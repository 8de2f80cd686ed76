import MiniShell.Lookup
import Mathlib.Data.List.DropRight

namespace MiniShell

/-!
# What a candidate means

A candidate is built from the spelling of the tracked path.  Here it is read as a
list of components, in which repeated slashes and most dots leave no trace, and
the two rules are described by what they do to such lists.  Appending keeps all
components of the tracked path.  Replacing drops the last one, unless the path
ends in a slash or its last component is none that could be replaced.

The description does not mention spellings, so it has to be shown that trimming
the spelling drops one component and no more.  The stem that is left by trimming
is followed by a slash in the tracked path, and a slash cuts components in two
wherever it stands.
-/

/-! ## Components -/

/-- What a path names on the way from its beginning to its end. -/
inductive Component where
  /-- The slash at the beginning of an absolute path. -/
  | root
  /-- A dot at the beginning of a relative path. -/
  | here
  | parent
  | name (spelling : Path)
  deriving DecidableEq, Repr

namespace Path

/-- The component of a piece between slashes.  Nothing, and a dot, stand for none. -/
def component? (piece : Path) : Option Component :=
  if piece = [] ∨ piece = dot then none
  else if piece = dotDot then some .parent
  else some (.name piece)

/-- The component that only the beginning of a path can give. -/
def lead (path : Path) : List Component :=
  if isAbsolute path then [.root]
  else if (path.splitOn slash).head? = some dot then [.here]
  else []

/-- The components that do not depend on where in a path they stand. -/
def inner (path : Path) : List Component :=
  (path.splitOn slash).filterMap component?

def components (path : Path) : List Component :=
  lead path ++ inner path

end Path

/-- The components of a relative path as they are added to others.  A dot at its
beginning says nothing there. -/
def Component.addedTo (base : List Component) : List Component -> List Component
  | .here :: rest => if base = [] then .here :: rest else rest
  | added => added

/-- The components of the tracked path that a candidate begins with. -/
def PathRule.base (rule : PathRule) (directory : Path) : List Component :=
  let whole := Path.components directory
  match rule with
  | .append => whole
  | .replaceFinal =>
      if Path.endsInSlash directory = true ∨
          whole.getLast? ∈ [some .parent, some .here, some .root] then whole
      else whole.dropLast

namespace Path

/-! ## Components around a slash -/

theorem splitOn_append_slash (front back : Path) :
    (front ++ slash :: back).splitOn slash = front.splitOn slash ++ back.splitOn slash :=
  List.splitOnP_append_cons front back (beq_self_eq_true slash)

theorem inner_append_slash (front back : Path) :
    inner (front ++ slash :: back) = inner front ++ inner back := by
  rw [inner, splitOn_append_slash, List.filterMap_append]
  rfl

theorem components_slash_cons (path : Path) :
    components (slash :: path) = .root :: inner path :=
  congrArg (List.cons Component.root) (inner_append_slash [] path)

theorem lead_append_slash {front : Path} (nonempty : front ≠ []) (back : Path) :
    lead (front ++ slash :: back) = lead front := by
  cases front with
  | nil => exact absurd rfl nonempty
  | cons byte front =>
      have first : ((byte :: front ++ slash :: back).splitOn slash).head? =
          ((byte :: front).splitOn slash).head? := by
        rw [splitOn_append_slash]
        exact List.head?_append_of_ne_nil _ (List.splitOnP_ne_nil _ _)
      simp only [lead, first]
      rfl

/-- A slash cuts the components of a path in two. -/
theorem components_append_slash {front : Path} (nonempty : front ≠ []) (back : Path) :
    components (front ++ slash :: back) = components front ++ inner back := by
  rw [components, lead_append_slash nonempty, inner_append_slash, ← List.append_assoc]
  rfl

theorem join_of_isAbsolute {path : Path} (absolute : isAbsolute path = true) (base : Path) :
    join base path = path :=
  if_pos absolute

theorem join_nil_left (path : Path) : join [] path = path := by
  unfold join
  split <;> rfl

/-- Joining adds components, whether the slash between the two is already there or not. -/
theorem components_join {base path : Path} (nonempty : base ≠ [])
    (relative : isAbsolute path = false) :
    components (join base path) = components base ++ inner path := by
  have notEmpty : base.isEmpty = false := List.isEmpty_eq_false_iff.mpr nonempty
  unfold join
  rw [relative, notEmpty, Bool.false_or]
  cases ends : endsInSlash base with
  | false => exact components_append_slash nonempty path
  | true =>
      rcases List.getLast?_eq_some_iff.mp (beq_iff_eq.mp ends) with ⟨front, same⟩
      subst same
      change components ((front ++ [slash]) ++ path) = _
      rw [List.append_assoc]
      cases front with
      | nil => exact components_slash_cons path
      | cons byte front =>
          have whole := List.cons_ne_nil byte front
          have bare : inner [] = [] := rfl
          rw [components_append_slash whole [], bare, List.append_nil]
          exact components_append_slash whole path

/-! ## Pieces -/

/-- Exactly the parts of a path give components. -/
theorem component?_eq (piece : Path) :
    component? piece =
      if isPart piece = true then some (if piece = dotDot then .parent else .name piece)
      else none := by
  unfold component?
  by_cases nothing : piece = [] ∨ piece = dot
  · rw [if_pos nothing]
    rcases nothing with same | same <;> subst same <;> rfl
  · have counts : isPart piece = true := by simpa [isPart] using nothing
    rw [if_neg nothing, if_pos counts]
    split <;> rfl

theorem component?_ne_here (piece : Path) : component? piece ≠ some .here := by
  unfold component?
  split
  · intro impossible
    cases impossible
  · split <;> intro impossible <;> cases impossible

theorem here_not_mem_inner (path : Path) : Component.here ∉ inner path := by
  intro member
  rcases List.mem_filterMap.mp member with ⟨piece, _, same⟩
  exact component?_ne_here piece same

theorem slash_not_mem_of_mem_splitOn {path piece : Path} (member : piece ∈ path.splitOn slash) :
    slash ∉ piece := by
  induction path generalizing piece with
  | nil =>
      rw [List.mem_singleton.mp member]
      exact List.not_mem_nil
  | cons byte path ih =>
      rw [List.splitOn_eq_splitOnP, List.splitOnP_cons_eq_if_modifyHead] at member
      rw [List.splitOn_eq_splitOnP] at ih
      by_cases same : byte = slash
      · rw [if_pos (beq_iff_eq.mpr same)] at member
        rcases List.mem_cons.mp member with nothing | later
        · rw [nothing]
          exact List.not_mem_nil
        · exact ih later
      · rw [if_neg (mt beq_iff_eq.mp same)] at member
        cases cut : path.splitOnP (· == slash) with
        | nil => exact absurd cut (List.splitOnP_ne_nil _ _)
        | cons first others =>
            rw [cut] at member ih
            rcases List.mem_cons.mp member with atFirst | later
            · rw [atFirst]
              exact List.not_mem_cons_of_ne_of_not_mem (Ne.symm same)
                (ih List.mem_cons_self)
            · exact ih (List.mem_cons_of_mem _ later)

/-! ## The anchor of a path -/

theorem anchor_cases (path : Path) :
    (exists rest, path = slash :: rest) ∨ path = dot ∨ (exists rest, path = dot ++ slash :: rest) ∨
      anchor path = [] ∧ lead path = [] := by
  cases absolute : isAbsolute path with
  | true =>
      rcases List.head?_eq_some_iff.mp (beq_iff_eq.mp absolute) with ⟨rest, same⟩
      exact .inl ⟨rest, same⟩
  | false =>
      right
      by_cases alone : path = dot
      · exact .inl alone
      · right
        cases dotted : (dot ++ [slash]).isPrefixOf path with
        | true =>
            rcases List.isPrefixOf_iff_prefix.mp dotted with ⟨rest, same⟩
            exact .inl ⟨rest, same.symm⟩
        | false =>
            right
            constructor
            · simp only [anchor, absolute, dotted, alone, Bool.false_eq_true, if_false,
                decide_false, Bool.or_false]
            · rw [lead, absolute, if_neg Bool.false_ne_true]
              apply if_neg
              intro first
              rcases List.head?_eq_some_iff.mp first with ⟨others, cut⟩
              have whole : [slash].intercalate (path.splitOn slash) = path :=
                List.intercalate_splitOn slash
              rw [cut] at whole
              cases others with
              | nil => exact alone whole.symm
              | cons other others =>
                  rw [List.intercalate_cons_cons] at whole
                  have begins : (dot ++ [slash]) <+: path := ⟨_, whole⟩
                  rw [← List.isPrefixOf_iff_prefix, dotted] at begins
                  cases begins

theorem isPrefix_anchor (path : Path) : anchor path <+: path := by
  rcases anchor_cases path with ⟨rest, same⟩ | same | ⟨rest, same⟩ | ⟨none, _⟩
  · subst same
    exact ⟨rest, rfl⟩
  · subst same
    exact ⟨[], rfl⟩
  · subst same
    exact ⟨slash :: rest, rfl⟩
  · rw [none]
    exact List.nil_prefix

theorem components_anchor (path : Path) : components (anchor path) = lead path := by
  rcases anchor_cases path with ⟨rest, same⟩ | same | ⟨rest, same⟩ | ⟨none, bare⟩
  · subst same
    rfl
  · subst same
    decide
  · subst same
    have first : lead (dot ++ slash :: rest) = lead dot :=
      lead_append_slash (by decide) rest
    have anchored : anchor (dot ++ slash :: rest) = dot := rfl
    rw [first, anchored]
    decide
  · rw [none, bare]
    rfl

/-- The anchor and the pieces make up the path. -/
theorem anchor_append_pieces (path : Path) :
    anchor path ++ [slash].intercalate (pieces path) = path := by
  rw [pieces, List.intercalate_splitOn]
  exact List.prefix_iff_eq_append.mp (isPrefix_anchor path)

theorem filterMap_pieces (path : Path) : (pieces path).filterMap component? = inner path := by
  rcases anchor_cases path with ⟨rest, same⟩ | same | ⟨rest, same⟩ | ⟨none, _⟩
  · subst same
    exact (inner_append_slash [] rest).symm
  · subst same
    decide
  · subst same
    exact (inner_append_slash dot rest).symm
  · rw [pieces, none]
    rfl

theorem components_eq (path : Path) :
    components path = lead path ++ (pieces path).filterMap component? := by
  rw [filterMap_pieces]
  rfl

/-! ## Dropping the last component -/

/-- Behind the last part there is nothing that counts. -/
theorem exists_skipped (pieces : List Path) :
    exists skipped, pieces = (reversedParts pieces).reverse ++ skipped ∧
      skipped.filterMap component? = [] := by
  refine ⟨pieces.rtakeWhile fun piece => !isPart piece,
    List.rdropWhile_append_rtakeWhile.symm, ?_⟩
  apply List.filterMap_eq_nil_iff.mpr
  intro piece member
  have uncounted := List.mem_rtakeWhile_imp member
  rw [component?_eq, (Bool.not_eq_true' _).mp uncounted]
  rfl

theorem intercalate_append {first second : List Path} (someFirst : first ≠ [])
    (someSecond : second ≠ []) :
    [slash].intercalate (first ++ second) =
      [slash].intercalate first ++ slash :: [slash].intercalate second := by
  induction first with
  | nil => exact absurd rfl someFirst
  | cons piece first ih =>
      by_cases last : first = []
      · subst last
        rw [List.singleton_append, List.intercalate_cons_of_ne_nil someSecond,
          List.intercalate_singleton, List.append_assoc]
        rfl
      · have later := List.append_ne_nil_of_left_ne_nil last second
        rw [List.cons_append, List.intercalate_cons_of_ne_nil later,
          List.intercalate_cons_of_ne_nil last, ih last]
        simp only [List.append_assoc]

/-- Pieces give the components of the path that they are put together to. -/
theorem inner_intercalate {path : Path} {some : List Path} (nonempty : some ≠ [])
    (member : some ⊆ pieces path) :
    inner ([slash].intercalate some) = some.filterMap component? := by
  rw [inner, List.splitOn_intercalate slash _ nonempty]
  intro piece among
  exact slash_not_mem_of_mem_splitOn (member among)

theorem anchor_append_ne_nil {path front back : Path}
    (whole : anchor path ++ front ++ slash :: back = path) : anchor path ++ front ≠ [] := by
  intro nothing
  rw [nothing] at whole
  have anchored : anchor path = [slash] := by
    rw [← whole]
    rfl
  rw [anchored] at nothing
  cases nothing

/-- What is left of a path without its last part.  The pieces before that part are given with
the latest one first. -/
def stem (path : Path) (earlier : List Path) : Path :=
  anchor path ++ [slash].intercalate (reversedParts earlier.reverse).reverse

theorem replaceFinal_of_parts {base last : Path} {earlier : List Path}
    (parts : reversedParts (pieces base) = last :: earlier) (path : Path) :
    replaceFinal base path =
      if last = dotDot then join base path else join (stem base earlier) path := by
  rw [replaceFinal, parts]
  rfl

theorem isPart_of_reversedParts {pieces earlier : List Path} {last : Path}
    (parts : reversedParts pieces = last :: earlier) : isPart last = true := by
  have stops := List.head?_dropWhile_not (fun piece => !isPart piece) pieces.reverse
  unfold reversedParts at parts
  rw [parts] at stops
  exact (Bool.not_eq_false' _).mp stops

/-- Only the last part is missing from the components of the stem. -/
theorem components_eq_stem {path last : Path} {earlier : List Path}
    (parts : reversedParts (pieces path) = last :: earlier) :
    components path =
      components (stem path earlier) ++ [if last = dotDot then .parent else .name last] := by
  rcases exists_skipped (pieces path) with ⟨behind, cut, uncounted⟩
  rcases exists_skipped earlier.reverse with ⟨between, cutEarlier, uncountedEarlier⟩
  rw [parts, List.reverse_cons, cutEarlier] at cut
  rw [stem]
  generalize (reversedParts earlier.reverse).reverse = kept at cut
  -- All that counts behind the stem is the last part.
  have counted : (between ++ [last] ++ behind).filterMap component? =
      [if last = dotDot then .parent else .name last] := by
    rw [List.filterMap_append, List.filterMap_append, uncounted, uncountedEarlier,
      List.nil_append, List.append_nil]
    apply List.filterMap_cons_some
    rw [component?_eq, if_pos (isPart_of_reversedParts parts)]
  have split : pieces path = kept ++ (between ++ [last] ++ behind) := by
    rw [cut]
    simp only [List.append_assoc]
  by_cases none : kept = []
  · rw [none, List.intercalate_nil, List.append_nil, components_anchor, components_eq, split, none,
      List.nil_append, counted]
  · have some : between ++ [last] ++ behind ≠ [] := by simp
    have whole := anchor_append_pieces path
    rw [split, intercalate_append none some, ← List.append_assoc] at whole
    have member : between ++ [last] ++ behind ⊆ pieces path := by
      rw [split]
      exact List.subset_append_right _ _
    have cutAtSlash := components_append_slash (anchor_append_ne_nil whole)
      ([slash].intercalate (between ++ [last] ++ behind))
    rw [whole, inner_intercalate some member, counted] at cutAtSlash
    exact cutAtSlash

/-! ## Adding components -/

theorem lead_eq_nil_iff (path : Path) :
    lead path = [] ↔ isAbsolute path = false ∧ (path.splitOn slash).head? ≠ some dot := by
  unfold lead
  split
  · next absolute => simp [absolute]
  · next relative => split <;> next dotted => simp [relative, dotted]

/-- Only the empty path has no components. -/
theorem components_ne_nil {path : Path} (nonempty : path ≠ []) : components path ≠ [] := by
  intro nothing
  rcases List.append_eq_nil_iff.mp nothing with ⟨noLead, noInner⟩
  rcases (lead_eq_nil_iff path).mp noLead with ⟨relative, notDot⟩
  have whole : [slash].intercalate (path.splitOn slash) = path :=
    List.intercalate_splitOn slash
  cases cut : path.splitOn slash with
  | nil => exact List.splitOnP_ne_nil _ _ cut
  | cons first others =>
      rw [inner, cut] at noInner
      rw [cut] at notDot whole
      have uncounted := List.filterMap_eq_nil_iff.mp noInner first List.mem_cons_self
      by_cases empty : first = []
      · subst empty
        cases others with
        | nil => exact nonempty whole.symm
        | cons other others =>
            rw [List.intercalate_cons_cons] at whole
            rw [← whole] at relative
            cases relative
      · have notHere : first ≠ dot := fun same => notDot (congrArg some same)
        rw [component?, if_neg (not_or.mpr ⟨empty, notHere⟩)] at uncounted
        split at uncounted <;> cases uncounted

theorem addedTo_components {base : List Component} (nonempty : base ≠ []) {path : Path}
    (relative : isAbsolute path = false) :
    Component.addedTo base (components path) = inner path := by
  rw [components, lead, relative, if_neg Bool.false_ne_true]
  split
  · exact if_neg nonempty
  · have notHere := here_not_mem_inner path
    rw [List.nil_append]
    cases added : inner path with
    | nil => rfl
    | cons component rest =>
        cases component with
        | here =>
            rw [added] at notHere
            exact absurd List.mem_cons_self notHere
        | _ => rfl

/-- A joined path has the components of both paths. -/
theorem components_join_eq (base : Path) {path : Path} (relative : isAbsolute path = false) :
    components (join base path) =
      components base ++ Component.addedTo (components base) (components path) := by
  by_cases empty : base = []
  · subst empty
    rw [join_nil_left]
    change _ = Component.addedTo [] (components path)
    cases components path with
    | nil => rfl
    | cons component rest => cases component <;> rfl
  · rw [components_join empty relative, addedTo_components (components_ne_nil empty) relative]

end Path

namespace PathRule

open MiniShell.Path

/-- The last component of a path with nothing to replace is its beginning or names a parent. -/
theorem getLast?_components_of_no_parts {directory : Path} (nonempty : directory ≠ [])
    (none : reversedParts (pieces directory) = []) :
    (components directory).getLast? ∈ [some Component.parent, some .here, some .root] := by
  rcases exists_skipped (pieces directory) with ⟨skipped, cut, uncounted⟩
  rw [none] at cut
  have nothing := components_ne_nil nonempty
  rw [components_eq, cut, List.reverse_nil, List.nil_append, uncounted, List.append_nil]
    at nothing ⊢
  unfold lead at nothing ⊢
  split
  · simp
  · split
    · simp
    · next relative notDot => simp [relative, notDot] at nothing

/-- The replacing rule joins the argument to a path whose components are those of `base`. -/
theorem exists_join_of_replaceFinal {directory : Path} (nonempty : directory ≠ [])
    (noSlash : endsInSlash directory = false) (argument : Path) :
    exists kept, Path.replaceFinal directory argument = join kept argument ∧
      components kept = replaceFinal.base directory := by
  cases parts : reversedParts (pieces directory) with
  | nil =>
      refine ⟨directory, by rw [Path.replaceFinal, parts], ?_⟩
      exact (if_pos (.inr (getLast?_components_of_no_parts nonempty parts))).symm
  | cons last earlier =>
      have cut := components_eq_stem parts
      rw [replaceFinal_of_parts parts]
      by_cases up : last = dotDot
      · rw [if_pos up] at cut ⊢
        refine ⟨directory, rfl, ?_⟩
        have ends : (components directory).getLast? = some .parent := by
          rw [cut, List.getLast?_concat]
        exact (if_pos (.inr (by rw [ends]; exact List.mem_cons_self))).symm
      · rw [if_neg up] at cut ⊢
        refine ⟨stem directory earlier, rfl, ?_⟩
        have ends : (components directory).getLast? = some (.name last) := by
          rw [cut, List.getLast?_concat]
        have replaces : ¬ (endsInSlash directory = true ∨
            (components directory).getLast? ∈ [some Component.parent, some .here, some .root]) := by
          rw [noSlash, ends]
          simp
        have dropped : (components directory).dropLast = components (stem directory earlier) := by
          rw [cut, List.dropLast_concat]
        exact ((if_neg replaces).trans dropped).symm

/-- Every candidate is joined from two paths, and the first has the components of `base`. -/
theorem exists_candidate_eq_join (rule : PathRule) {directory : Path} (nonempty : directory ≠ [])
    (argument : Path) :
    exists kept, rule.candidate directory argument = join kept argument ∧
      components kept = rule.base directory := by
  cases rule with
  | append => exact ⟨directory, rfl, rfl⟩
  | replaceFinal =>
      have notEmpty : directory.isEmpty = false := List.isEmpty_eq_false_iff.mpr nonempty
      rw [candidate, notEmpty, Bool.false_or]
      cases ends : endsInSlash directory with
      | false => exact exists_join_of_replaceFinal nonempty ends argument
      | true => exact ⟨directory, rfl, (if_pos (.inl ends)).symm⟩

theorem candidate_nil_left (rule : PathRule) (argument : Path) :
    rule.candidate [] argument = argument := by
  cases rule <;> exact join_nil_left argument

/-- What a candidate is in terms of components.  An absolute argument stands for itself, and so
does every argument if no path is tracked.  Otherwise the candidate has the components of the
tracked path that the rule keeps, and then those of the argument. -/
theorem components_candidate (rule : PathRule) (directory argument : Path) :
    (isAbsolute argument = true -> rule.candidate directory argument = argument) ∧
    (directory = [] -> rule.candidate directory argument = argument) ∧
    (isAbsolute argument = false -> directory ≠ [] ->
      components (rule.candidate directory argument) =
        rule.base directory ++ Component.addedTo (rule.base directory) (components argument)) := by
  refine ⟨?_, ?_, ?_⟩
  · intro absolute
    by_cases empty : directory = []
    · rw [empty, candidate_nil_left]
    · rcases exists_candidate_eq_join rule empty argument with ⟨kept, joined, _⟩
      rw [joined, join_of_isAbsolute absolute]
  · intro empty
    rw [empty, candidate_nil_left]
  · intro relative nonempty
    rcases exists_candidate_eq_join rule nonempty argument with ⟨kept, joined, same⟩
    rw [joined, components_join_eq kept relative, same]

/-- Under the replacing rule the last part goes, whatever slashes and dots stand around it. -/
theorem components_candidate_trimmed :
    Path.isAbsolute (Utf8.encode "./x/y".toList) = false ∧ Utf8.encode "/a//./b/.".toList ≠ [] ∧
      components (replaceFinal.candidate (Utf8.encode "/a//./b/.".toList)
        (Utf8.encode "./x/y".toList)) =
          [.root, .name (Utf8.encode ['a']), .name (Utf8.encode ['x']),
            .name (Utf8.encode ['y'])] := by
  have relative : Path.isAbsolute (Utf8.encode "./x/y".toList) = false := by decide
  have nonempty : Utf8.encode "/a//./b/.".toList ≠ [] := by decide
  refine ⟨relative, nonempty, ?_⟩
  rw [(components_candidate replaceFinal _ _).2.2 relative nonempty]
  decide

end PathRule
end MiniShell
