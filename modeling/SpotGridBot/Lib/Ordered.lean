import Mathlib.Data.List.Sort

namespace SpotGridBot.Ordered
variable {α : Type*}

/-- `vector::insert` at the position `find_if` returns. -/
def insertBefore (p : α → Bool) (a : α) (l : List α) : List α := l.insertIdx (l.findIdx p) a

theorem insertBefore_eq_orderedInsert (r : α → α → Prop) [DecidableRel r] (a : α) (l : List α) :
    insertBefore (fun b => r a b) a l = l.orderedInsert r a := by
  induction l with
  | nil => rfl
  | cons b l ih =>
      rw [List.orderedInsert_cons, ← ih, insertBefore, List.findIdx_cons]
      by_cases first : r a b
      · simp [first]
      · simp [first, insertBefore]

theorem mem_insertBefore {p : α → Bool} {a b : α} {l : List α} :
    b ∈ insertBefore p a l ↔ b = a ∨ b ∈ l :=
  List.mem_insertIdx List.findIdx_le_length

theorem insertBefore_perm (p : α → Bool) (a : α) (l : List α) :
    (insertBefore p a l).Perm (a :: l) :=
  List.perm_insertIdx _ _ List.findIdx_le_length

theorem pairwise_insertBefore {r : α → α → Prop} (trans : ∀ a b c, r a b → r b c → r a c)
    {p : α → Bool} {a : α} {l : List α} (ordered : l.Pairwise r)
    (below : ∀ b ∈ l, p b = false → r b a) (above : ∀ b, l.find? p = some b → r a b) :
    (insertBefore p a l).Pairwise r := by
  induction l with
  | nil => exact List.pairwise_singleton r a
  | cons b l ih =>
      obtain ⟨first, ordered⟩ := List.pairwise_cons.mp ordered
      unfold insertBefore
      rw [List.findIdx_cons]
      cases here : p b with
      | true =>
          have least : r a b := above b (by rw [List.find?_cons_of_pos here])
          refine List.Pairwise.cons (fun c member => ?_) (List.Pairwise.cons first ordered)
          rcases List.mem_cons.mp member with rfl | later
          · exact least
          · exact trans _ _ _ least (first c later)
      | false =>
          have rest : (insertBefore p a l).Pairwise r :=
            ih ordered (fun c member => below c (List.mem_cons_of_mem b member)) fun c found =>
              above c (by rw [List.find?_cons_of_neg (by simp [here]), found])
          refine List.Pairwise.cons (fun c member => ?_) rest
          rcases mem_insertBefore.mp member with rfl | later
          · exact below b List.mem_cons_self here
          · exact first c later

theorem find?_append_eraseP_perm (p : α → Bool) (l : List α) :
    l.Perm ((l.find? p).toList ++ l.eraseP p) := by
  induction l with
  | nil => exact List.Perm.refl _
  | cons a l ih =>
      by_cases here : p a = true
      · simp [here]
      · simp only [List.find?_cons, List.eraseP_cons, here]
        exact (ih.cons a).trans List.perm_middle.symm

theorem rel_of_find?_eq_some {r : α → α → Prop} {p : α → Bool} {l : List α} {a b : α}
    (ordered : l.Pairwise r) (found : l.find? p = some a) (member : b ∈ l) (holds : p b = true) :
    b = a ∨ r a b := by
  induction l with
  | nil => contradiction
  | cons c l ih =>
      obtain ⟨below, ordered⟩ := List.pairwise_cons.mp ordered
      by_cases first : p c = true
      · obtain rfl : c = a := by simpa [first] using found
        rcases List.mem_cons.mp member with rfl | later
        · exact .inl rfl
        · exact .inr (below b later)
      · have later : b ∈ l := by
          rcases List.mem_cons.mp member with rfl | later
          · exact absurd holds first
          · exact later
        exact ih ordered (by simpa [first] using found) later

end SpotGridBot.Ordered
