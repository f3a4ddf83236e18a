import InterfaceSchemes.Text.Basic
import Mathlib.Data.List.Induction

/-! # First occurrences

Several stages keep the first of the entries that have something in common: the sources of a batch,
the imports of a module, the dependencies of a field. What they keep is said here by positions.

* **`firsts key l`** — the entries of `l` before which no entry has the same key, in order.
* **`firsts_concat`** — what one more entry does.
* **`mem_map_firsts_iff`** — every key is still there, and `nodup_map_firsts` — no key twice.
* **`firsts_id_eq_eraseDups`** — with the entries as keys, this is the list without repetitions. -/

namespace InterfaceSchemes

section
variable {α β : Type} [BEq β]

/-- **The first occurrences**: the entry at the position `k` stays if none of the `k` entries before
it has its key. -/
def firsts (key : α → β) (l : List α) : List α :=
  (l.zipIdx.filter fun entry => !((l.take entry.2).map key).contains (key entry.1)).map Prod.fst

/-- No entries, no first ones. -/
@[simp] theorem firsts_nil (key : α → β) : firsts key [] = [] := rfl

variable [LawfulBEq β]

/-- **`firsts key (l ++ [a])`** ends with `a` if its key is new. -/
theorem firsts_concat (key : α → β) (l : List α) (a : α) :
    firsts key (l ++ [a])
      = if key a ∈ l.map key then firsts key l else firsts key l ++ [a] := by
  -- what stands before an entry of `l` is the same in the longer list
  have hfront : (l.zipIdx.filter fun entry =>
        !(((l ++ [a]).take entry.2).map key).contains (key entry.1))
      = l.zipIdx.filter fun entry => !((l.take entry.2).map key).contains (key entry.1) := by
    refine List.filter_congr fun entry hentry => ?_
    obtain ⟨-, hlt, -⟩ := List.mem_zipIdx (x := entry.1) (i := entry.2) hentry
    rw [List.take_append_of_le_length (by omega)]
  have hlast : (l ++ [a]).zipIdx = l.zipIdx ++ [(a, l.length)] := by
    rw [List.zipIdx_append, List.zipIdx_singleton, Nat.zero_add]
  rw [firsts, hlast, List.filter_append, List.map_append, hfront, ← firsts]
  by_cases ha : key a ∈ l.map key
  · rw [if_pos ha]
    simp [ha]
  · rw [if_neg ha]
    simp [ha]

/-- `(firsts key l).head? = l.head?`. -/
theorem head?_firsts (key : α → β) (l : List α) : (firsts key l).head? = l.head? := by
  induction l using List.reverseRecOn with
  | nil => rfl
  | append_singleton l a ih =>
    rw [firsts_concat, List.head?_append]
    by_cases ha : key a ∈ l.map key
    · -- then there is an entry before the last
      rw [if_pos ha, ih]
      cases l with
      | nil => cases ha
      | cons b l => rfl
    · rw [if_neg ha, List.head?_append, ih]

/-- **`firsts` loses no key.** -/
theorem mem_map_firsts_iff {key : α → β} {l : List α} {b : β} :
    b ∈ (firsts key l).map key ↔ b ∈ l.map key := by
  induction l using List.reverseRecOn with
  | nil => rw [firsts_nil]
  | append_singleton l a ih =>
    rw [firsts_concat, List.map_append, List.mem_append]
    by_cases ha : key a ∈ l.map key
    · -- the key of the last entry is not new
      rw [if_pos ha, ih, List.map_singleton, List.mem_singleton]
      constructor
      · exact Or.inl
      · rintro (hb | rfl)
        · exact hb
        · exact ha
    · rw [if_neg ha, List.map_append, List.mem_append, ih]

/-- **`firsts` has no key twice.** -/
theorem nodup_map_firsts (key : α → β) (l : List α) : ((firsts key l).map key).Nodup := by
  induction l using List.reverseRecOn with
  | nil => exact List.nodup_nil
  | append_singleton l a ih =>
    rw [firsts_concat]
    by_cases ha : key a ∈ l.map key
    · rw [if_pos ha]
      exact ih
    · rw [if_neg ha, List.map_append, List.nodup_append]
      refine ⟨ih, by simp, ?_⟩
      intro b hb c hc hbc
      rw [List.map_singleton, List.mem_singleton] at hc
      rw [hbc, hc] at hb
      exact ha (mem_map_firsts_iff.mp hb)

end

section
variable {α : Type} [BEq α] [LawfulBEq α]

/-- One more element is erased if it is there already. -/
theorem eraseDups_concat (l : List α) (a : α) :
    (l ++ [a]).eraseDups = if a ∈ l then l.eraseDups else l.eraseDups ++ [a] := by
  rw [List.eraseDups_append, List.cons_removeAll]
  by_cases ha : a ∈ l
  · simp [ha]
  · simp [ha, List.eraseDups_cons]

/-- **`firsts id l = l.eraseDups`**: the first occurrences of the elements themselves are the list
without repetitions. -/
theorem firsts_id_eq_eraseDups (l : List α) : firsts id l = l.eraseDups := by
  induction l using List.reverseRecOn with
  | nil => rfl
  | append_singleton l a ih => rw [firsts_concat, eraseDups_concat, ih, List.map_id, id]

end

end InterfaceSchemes
