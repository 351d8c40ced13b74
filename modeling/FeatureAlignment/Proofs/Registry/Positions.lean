/-!
# Tables of positions

`Indexes table keys` says that a table gives each of the keys its position, and gives
no other key one. Such a table goes on when a new key is entered at the end (`push`);
that there is one for a list of keys means that no key occurs twice (`nodup`).
-/

namespace FeatureAlignment

/-- **A table of positions.** Every key is found at its one position. -/
structure Indexes {κ : Type} [BEq κ] (table : List (κ × Nat)) (keys : List κ) : Prop where
  names : (table.map Prod.fst).Nodup
  positions : ∀ k i, table.lookup k = some i ↔ keys[i]? = some k

namespace Indexes

variable {κ : Type} [BEq κ] {table : List (κ × Nat)} {keys : List κ}

theorem nil : Indexes ([] : List (κ × Nat)) [] := ⟨List.nodup_nil, fun k i => by simp⟩

/-- A key without position does not occur. -/
theorem not_mem (h : Indexes table keys) {k : κ} (hk : table.lookup k = none) : k ∉ keys := by
  intro hmem
  obtain ⟨i, hi⟩ := List.mem_iff_getElem?.1 hmem
  rw [← h.positions, hk] at hi
  cases hi

/-- **No key occurs twice.** -/
theorem nodup (h : Indexes table keys) : keys.Nodup := by
  refine List.pairwise_iff_getElem.2 fun i j hi hj hij heq => ?_
  have h1 := (h.positions keys[i] i).2 (List.getElem?_eq_getElem hi)
  have h2 := (h.positions keys[j] j).2 (List.getElem?_eq_getElem hj)
  rw [heq, h2] at h1
  cases h1
  omega

variable [LawfulBEq κ]

theorem lookup_not_mem_names {k : κ} (hk : table.lookup k = none) : k ∉ table.map Prod.fst := by
  intro hmem
  obtain ⟨⟨k', i⟩, hp, rfl⟩ := List.mem_map.1 hmem
  rw [List.lookup_eq_none_iff] at hk
  simpa using hk (k', i) hp

/-- **A new key goes to the end.** -/
theorem push (h : Indexes table keys) {k : κ} (hk : table.lookup k = none) :
    Indexes ((k, keys.length) :: table) (keys ++ [k]) := by
  refine ⟨List.nodup_cons.2 ⟨lookup_not_mem_names hk, h.names⟩, fun k' i => ?_⟩
  rw [List.lookup_cons]
  by_cases hkk : k' = k
  · subst hkk
    simp only [beq_self_eq_true, Option.some.injEq]
    constructor
    · rintro rfl; simp
    · -- before the end there are only other keys, and after it nothing
      intro hi
      rcases Nat.lt_trichotomy i keys.length with hlt | rfl | hgt
      · rw [List.getElem?_append_left hlt] at hi
        exact absurd (List.mem_of_getElem? hi) (h.not_mem hk)
      · rfl
      · rw [List.getElem?_eq_none (by simp; omega)] at hi; cases hi
  · have hne : (k' == k) = false := by simpa using hkk
    simp only [hne]
    rw [h.positions]
    rcases Nat.lt_trichotomy i keys.length with hlt | rfl | hgt
    · rw [List.getElem?_append_left hlt]
    · simp [Ne.symm hkk]
    · rw [List.getElem?_eq_none (by omega), List.getElem?_eq_none (by simp; omega)]

end Indexes

end FeatureAlignment
