import Mathlib.Data.List.Forall2

/-!
Attempts that may fail, one after another. Main statement: the tasks of a list all succeed exactly
when each of them gives its result.
-/

namespace CrateAtlas

variable {task : α → Except ε β} {items : List α} {results : List β}

theorem bind_eq_ok {attempt : Except ε α} {next : α → Except ε β} {result : β} :
    (attempt >>= next) = .ok result ↔ ∃ value, attempt = .ok value ∧ next value = .ok result := by
  cases attempt with
  | ok value => simp [bind, Except.bind]
  | error fault => simp [bind, Except.bind]

theorem pure_eq_ok {value result : β} :
    (pure value : Except ε β) = .ok result ↔ value = result := by
  constructor
  · exact Except.ok.inj
  · rintro rfl
    rfl

theorem mapM_eq_ok : items.mapM task = .ok results ↔
    List.Forall₂ (fun item result => task item = .ok result) items results := by
  induction items generalizing results with
  | nil => rw [List.mapM_nil, pure_eq_ok, List.forall₂_nil_left_iff, eq_comm]
  | cons item rest ih =>
      simp only [List.mapM_cons, bind_eq_ok, pure_eq_ok, ih, List.forall₂_cons_left_iff]
      constructor
      · rintro ⟨first, answer, more, others, rfl⟩
        exact ⟨first, more, answer, others, rfl⟩
      · rintro ⟨first, more, answer, others, rfl⟩
        exact ⟨first, answer, more, others, rfl⟩

theorem exists_mapM_ok (answered : ∀ item ∈ items, ∃ result, task item = .ok result) :
    ∃ results, items.mapM task = .ok results := by
  induction items with
  | nil => exact ⟨[], rfl⟩
  | cons item rest ih =>
      obtain ⟨first, answer⟩ := answered item List.mem_cons_self
      obtain ⟨results, others⟩ := ih fun other member =>
        answered other (List.mem_cons_of_mem item member)
      rw [mapM_eq_ok] at others
      exact ⟨first :: results, mapM_eq_ok.mpr (.cons answer others)⟩

end CrateAtlas
