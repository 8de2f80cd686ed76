namespace MiniShell

/-!
# Lists of bindings

What is known by its key stands in a list of pairs, and the first pair of a key
is the one that counts.  Giving a key a value takes away the value that it had, so
a list that has each key once keeps this property.
-/

namespace Bindings

variable {Key Value : Type} [BEq Key] [LawfulBEq Key] {bindings : List (Key × Value)} {key : Key}
  {value : Value}

/-- Give a key a value, in the place of the one that it had. -/
def set (bindings : List (Key × Value)) (key : Key) (value : Value) : List (Key × Value) :=
  (key, value) :: bindings.filter fun binding => binding.1 != key

theorem lookup_set_self (bindings : List (Key × Value)) (key : Key) (value : Value) :
    (set bindings key value).lookup key = some value :=
  List.lookup_cons_self

theorem lookup_set_of_ne (bindings : List (Key × Value)) (value : Value) {other : Key}
    (different : other ≠ key) :
    (set bindings key value).lookup other = bindings.lookup other := by
  have skipped : (other == key) = false := beq_eq_false_iff_ne.mpr different
  simp only [set, List.lookup_cons, skipped]
  induction bindings with
  | nil => rfl
  | cons binding bindings ih =>
      rcases binding with ⟨bound, held⟩
      by_cases same : bound = key
      · subst same
        simp only [bne_self_eq_false, Bool.false_eq_true, not_false_eq_true,
          List.filter_cons_of_neg, List.lookup_cons, skipped]
        exact ih
      · have kept : (bound != key) = true := bne_iff_ne.mpr same
        simp only [kept, List.filter_cons_of_pos, List.lookup_cons]
        rw [ih]

theorem nodup_set (distinct : (bindings.map Prod.fst).Nodup) (key : Key) (value : Value) :
    ((set bindings key value).map Prod.fst).Nodup := by
  rw [set, List.map_cons, List.nodup_cons]
  constructor
  · intro member
    rcases List.mem_map.mp member with ⟨binding, kept, same⟩
    exact bne_iff_ne.mp (List.mem_filter.mp kept).2 same
  · exact distinct.sublist (List.filter_sublist.map Prod.fst)

/-- Where no key comes up twice, a look-up finds all that there is. -/
theorem mem_iff_lookup (distinct : (bindings.map Prod.fst).Nodup) :
    (key, value) ∈ bindings ↔ bindings.lookup key = some value := by
  constructor
  · intro member
    induction bindings with
    | nil => cases member
    | cons binding bindings ih =>
        rw [List.map_cons, List.nodup_cons] at distinct
        rcases List.mem_cons.mp member with first | later
        · subst first
          exact List.lookup_cons_self
        · have other : (key == binding.1) = false := by
            apply beq_eq_false_iff_ne.mpr
            intro same
            exact distinct.1 (same ▸ List.mem_map_of_mem later)
          rw [List.lookup_cons, other]
          exact ih distinct.2 later
  · intro found
    rcases List.lookup_eq_some_iff.mp found with ⟨before, after, parts, _⟩
    rw [parts]
    exact List.mem_append_right before List.mem_cons_self

end Bindings
end MiniShell
