import Mathlib.Control.Monad.Basic
import Mathlib.Data.List.Forall2

/-! # Computations that can fail

Every stage of a run is a chain of steps in `Except`, and a stage over a list stops at the first
element that fails. These lemmas take such computations apart, so that no later proof opens a `do`.

* **`bind_eq_ok_iff`** — a chain succeeds exactly when both of its steps do.
* **`mapM_eq_ok_iff`** — a pass over a list succeeds exactly when each element does.
* **`exists_split_of_mem_right`** — a result of a pass, with the elements and results before it. -/

namespace InterfaceSchemes.Fallible

variable {ε α β : Type}

/-- `x >>= f = .ok b` exactly when `x` gives some `a` and `f a` gives `b`. -/
theorem bind_eq_ok_iff {x : Except ε α} {f : α → Except ε β} {b : β} :
    (x >>= f) = .ok b ↔ ∃ a, x = .ok a ∧ f a = .ok b := by
  cases x with
  | error e => simp [bind, Except.bind]
  | ok a => simp [bind, Except.bind]

/-- `x >>= f = .error e` exactly when one of the two steps fails with `e`. -/
theorem bind_eq_error_iff {x : Except ε α} {f : α → Except ε β} {e : ε} :
    (x >>= f) = .error e ↔ x = .error e ∨ ∃ a, x = .ok a ∧ f a = .error e := by
  cases x with
  | error e => simp [bind, Except.bind]
  | ok a => simp [bind, Except.bind]

/-- `x.map f = .ok b` exactly when `x` gives some `a` with `f a = b`. -/
theorem map_eq_ok_iff {f : α → β} {x : Except ε α} {b : β} :
    x.map f = .ok b ↔ ∃ a, x = .ok a ∧ f a = b := by
  cases x with
  | error e => simp [Except.map]
  | ok a => simp [Except.map]

/-- `x.mapError f = .ok a ↔ x = .ok a`. -/
theorem mapError_eq_ok_iff {ε' : Type} {f : ε → ε'} {x : Except ε α} {a : α} :
    x.mapError f = .ok a ↔ x = .ok a := by
  cases x with
  | error e => simp [Except.mapError]
  | ok b => simp [Except.mapError]

/-- **`as.mapM f` succeeds exactly when each element does.** -/
theorem mapM_eq_ok_iff {f : α → Except ε β} {as : List α} {bs : List β} :
    as.mapM f = .ok bs ↔ List.Forall₂ (fun a b => f a = .ok b) as bs := by
  induction as generalizing bs with
  | nil => simp [eq_comm, pure, Except.pure]
  | cons a as ih =>
    rw [List.mapM_cons, bind_eq_ok_iff]
    constructor
    · rintro ⟨b, hb, hrest⟩
      obtain ⟨bs, hbs, hpure⟩ := bind_eq_ok_iff.mp hrest
      cases hpure
      exact .cons hb (ih.mp hbs)
    · intro hall
      cases hall with
      | cons hb hbs => exact ⟨_, hb, bind_eq_ok_iff.mpr ⟨_, ih.mpr hbs, rfl⟩⟩

/-- `as.mapM f` fails as one of the elements does. -/
theorem exists_of_mapM_eq_error {f : α → Except ε β} {as : List α} {e : ε}
    (hfails : as.mapM f = .error e) : ∃ a ∈ as, f a = .error e := by
  induction as with
  | nil => cases hfails
  | cons a as ih =>
    rw [List.mapM_cons, bind_eq_error_iff] at hfails
    rcases hfails with hfails | ⟨b, -, hrest⟩
    · exact ⟨a, List.mem_cons_self, hfails⟩
    · rcases bind_eq_error_iff.mp hrest with hrest | ⟨bs, -, hpure⟩
      · obtain ⟨a', ha', hfails⟩ := ih hrest
        exact ⟨a', List.mem_cons_of_mem a ha', hfails⟩
      · cases hpure

/-- `as.mapM f` succeeds if `f` has a result for each element. -/
theorem exists_mapM_eq_ok {f : α → Except ε β} {as : List α} (hall : ∀ a ∈ as, ∃ b, f a = .ok b) :
    ∃ bs, as.mapM f = .ok bs := by
  induction as with
  | nil => exact ⟨[], rfl⟩
  | cons a as ih =>
    obtain ⟨b, hb⟩ := hall a (by simp)
    obtain ⟨bs, hbs⟩ := ih fun a' ha' => hall a' (List.mem_cons_of_mem _ ha')
    exact ⟨b :: bs, mapM_eq_ok_iff.mpr (.cons hb (mapM_eq_ok_iff.mp hbs))⟩

/-- `(as ++ as').mapM f` is a pass over `as` and a pass over `as'`. -/
theorem mapM_append_eq_ok_iff {f : α → Except ε β} {as as' : List α} {bs : List β} :
    (as ++ as').mapM f = .ok bs ↔
      ∃ front back, as.mapM f = .ok front ∧ as'.mapM f = .ok back ∧ bs = front ++ back := by
  rw [List.mapM_append, bind_eq_ok_iff]
  constructor
  · rintro ⟨front, hfront, hrest⟩
    obtain ⟨back, hback, hpure⟩ := bind_eq_ok_iff.mp hrest
    cases hpure
    exact ⟨front, back, hfront, hback, rfl⟩
  · rintro ⟨front, back, hfront, hback, rfl⟩
    exact ⟨front, hfront, bind_eq_ok_iff.mpr ⟨back, hback, rfl⟩⟩

/-- `as.mapM f = as.mapM g` if `f` and `g` agree on `as`. -/
theorem mapM_congr {f g : α → Except ε β} {as : List α} (hall : ∀ a ∈ as, f a = g a) :
    as.mapM f = as.mapM g := by
  induction as with
  | nil => rfl
  | cons a as ih =>
    rw [List.mapM_cons, List.mapM_cons, hall a (by simp),
      ih fun a' ha' => hall a' (List.mem_cons_of_mem _ ha')]

/-- Each result of a pass is the result of an element. -/
theorem exists_of_mem_right {R : α → β → Prop} {as : List α} {bs : List β}
    (hall : List.Forall₂ R as bs) {b : β} (hb : b ∈ bs) : ∃ a ∈ as, R a b := by
  induction hall with
  | nil => cases hb
  | cons hhead htail ih =>
    rcases List.mem_cons.mp hb with rfl | hb
    · exact ⟨_, by simp, hhead⟩
    · obtain ⟨a, ha, hR⟩ := ih hb
      exact ⟨a, List.mem_cons_of_mem _ ha, hR⟩

/-- Each element of a pass has a result. -/
theorem exists_of_mem_left {R : α → β → Prop} {as : List α} {bs : List β}
    (hall : List.Forall₂ R as bs) {a : α} (ha : a ∈ as) : ∃ b ∈ bs, R a b := by
  obtain ⟨b, hb, hR⟩ := exists_of_mem_right hall.flip ha
  exact ⟨b, hb, hR⟩

/-- Each result of a pass stands where its element stands. -/
theorem exists_split_of_mem_right {R : α → β → Prop} {as : List α} {bs : List β}
    (hall : List.Forall₂ R as bs) {b : β} (hb : b ∈ bs) :
    ∃ as₁ a as₂ bs₁ bs₂, as = as₁ ++ a :: as₂ ∧ bs = bs₁ ++ b :: bs₂ ∧
      List.Forall₂ R as₁ bs₁ ∧ R a b := by
  induction hall with
  | nil => cases hb
  | @cons a' b' as' bs' hhead htail ih =>
    rcases List.mem_cons.mp hb with rfl | hb
    · exact ⟨[], a', as', [], bs', rfl, rfl, .nil, hhead⟩
    · obtain ⟨as₁, a, as₂, bs₁, bs₂, rfl, rfl, hfront, hR⟩ := ih hb
      exact ⟨a' :: as₁, a, as₂, b' :: bs₁, bs₂, rfl, rfl, .cons hhead hfront, hR⟩

end InterfaceSchemes.Fallible
