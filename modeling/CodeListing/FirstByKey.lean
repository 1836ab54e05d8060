/-!
# The first item of each key
-/

set_option autoImplicit false

namespace CodeListing

/-- The items in order, without those whose key was seen before. -/
def firstByKeyFrom {α κ : Type} [BEq κ] (key : α → κ) (seen : List κ) : List α → List α
  | [] => []
  | item :: rest =>
    if seen.contains (key item) then firstByKeyFrom key seen rest
    else item :: firstByKeyFrom key (key item :: seen) rest

/-- The items in order, only the first one of each key. -/
def firstByKey {α κ : Type} [BEq κ] (key : α → κ) (items : List α) : List α :=
  firstByKeyFrom key [] items

section Lemmas

variable {α β κ : Type} [BEq κ] [LawfulBEq κ] {key : α → κ} {seen : List κ} {items others : List α}

/-- Items whose keys were all seen are left out in front of others. -/
theorem firstByKeyFrom_append_of_seen (h : ∀ item ∈ items, key item ∈ seen) :
    firstByKeyFrom key seen (items ++ others) = firstByKeyFrom key seen others := by
  induction items with
  | nil => rfl
  | cons item rest ih =>
    have hseen : seen.contains (key item) = true := by
      simpa using h item List.mem_cons_self
    rw [List.cons_append, firstByKeyFrom, if_pos hseen]
    exact ih fun other hother => h other (List.mem_cons_of_mem _ hother)

/-- Nothing is kept if every key was seen before. -/
theorem firstByKeyFrom_eq_nil (h : ∀ item ∈ items, key item ∈ seen) :
    firstByKeyFrom key seen items = [] := by
  have happend : firstByKeyFrom key seen (items ++ []) = [] := firstByKeyFrom_append_of_seen h
  rwa [List.append_nil] at happend

/-- An item with a new key is kept, and its key is seen from there on. -/
theorem firstByKeyFrom_cons_of_not_mem {item : α} (h : key item ∉ seen) :
    firstByKeyFrom key seen (item :: items) =
      item :: firstByKeyFrom key (key item :: seen) items := by
  have hnew : ¬ seen.contains (key item) = true := by simpa using h
  rw [firstByKeyFrom, if_neg hnew]

omit [LawfulBEq κ] in
/-- Items that come later do not change which of the earlier ones are kept. -/
theorem firstByKeyFrom_prefix_append (items others : List α) :
    firstByKeyFrom key seen items <+: firstByKeyFrom key seen (items ++ others) := by
  induction items generalizing seen with
  | nil => exact List.nil_prefix
  | cons item rest ih =>
    rw [List.cons_append, firstByKeyFrom, firstByKeyFrom]
    split
    · exact ih
    · exact List.cons_prefix_cons.2 ⟨rfl, ih⟩

omit [LawfulBEq κ] in
/-- Keeping the first of each key among images is keeping the first of each key of the image. -/
theorem firstByKeyFrom_map (f : β → α) (items : List β) :
    firstByKeyFrom key seen (items.map f) =
      (firstByKeyFrom (fun item => key (f item)) seen items).map f := by
  induction items generalizing seen with
  | nil => rfl
  | cons item rest ih =>
    rw [List.map_cons, firstByKeyFrom, firstByKeyFrom]
    split
    · exact ih
    · rw [ih, List.map_cons]

omit [LawfulBEq κ] in
/-- The items that are kept stay in their order. -/
theorem firstByKeyFrom_sublist : (firstByKeyFrom key seen items).Sublist items := by
  induction items generalizing seen with
  | nil => exact List.Sublist.refl _
  | cons item rest ih =>
    rw [firstByKeyFrom]
    split
    · exact ih.cons item
    · exact ih.cons_cons item

/-- Every key that was not seen before is the key of an item that is kept. -/
theorem exists_mem_firstByKeyFrom {item : α} (hmem : item ∈ items) (hnew : key item ∉ seen) :
    ∃ first ∈ firstByKeyFrom key seen items, key first = key item := by
  induction items generalizing seen with
  | nil => cases hmem
  | cons head rest ih =>
    by_cases hseen : key head ∈ seen
    · have hskip : firstByKeyFrom key seen (head :: rest) = firstByKeyFrom key seen rest :=
        firstByKeyFrom_append_of_seen (by simpa using hseen : ∀ item ∈ [head], key item ∈ seen)
      rw [hskip]
      rcases List.mem_cons.1 hmem with rfl | hmem
      · exact absurd hseen hnew
      · exact ih hmem hnew
    · rw [firstByKeyFrom_cons_of_not_mem hseen]
      by_cases hsame : key item = key head
      · exact ⟨head, List.mem_cons_self, hsame.symm⟩
      · have hrest : item ∈ rest := by
          rcases List.mem_cons.1 hmem with rfl | hmem
          · exact absurd rfl hsame
          · exact hmem
        have hnew' : key item ∉ key head :: seen := by
          simp [hsame, hnew]
        obtain ⟨first, hfirst, hkey⟩ := ih hrest hnew'
        exact ⟨first, List.mem_cons_of_mem _ hfirst, hkey⟩

/-- No key gets lost. -/
theorem mem_map_firstByKey {k : κ} : k ∈ (firstByKey key items).map key ↔ k ∈ items.map key := by
  constructor
  · intro hmem
    exact (firstByKeyFrom_sublist.map key).subset hmem
  · intro hmem
    obtain ⟨item, hitem, rfl⟩ := List.mem_map.1 hmem
    exact List.mem_map.2 (exists_mem_firstByKeyFrom hitem List.not_mem_nil)

/-- Only the keys that were seen matter, not how they are listed. -/
theorem firstByKeyFrom_congr {seen' : List κ} (h : ∀ k, k ∈ seen' ↔ k ∈ seen) :
    firstByKeyFrom key seen' items = firstByKeyFrom key seen items := by
  induction items generalizing seen seen' with
  | nil => rfl
  | cons item rest ih =>
    have hcontains : seen'.contains (key item) = seen.contains (key item) := by
      rw [Bool.eq_iff_iff, List.contains_iff_mem, List.contains_iff_mem]
      exact h (key item)
    rw [firstByKeyFrom, firstByKeyFrom, hcontains]
    split
    · exact ih h
    · have hseen : ∀ k, k ∈ key item :: seen' ↔ k ∈ key item :: seen := by
        intro k
        rw [List.mem_cons, List.mem_cons, h k]
      rw [ih hseen]

/-- Of items that come later, those are kept whose key none of the earlier ones has. -/
theorem firstByKeyFrom_append {seen' : List κ}
    (h : ∀ k, k ∈ seen' ↔ k ∈ seen ∨ k ∈ items.map key) :
    firstByKeyFrom key seen (items ++ others) =
      firstByKeyFrom key seen items ++ firstByKeyFrom key seen' others := by
  induction items generalizing seen with
  | nil =>
    refine (firstByKeyFrom_congr ?_).symm
    intro k
    rw [h k]
    simp
  | cons item rest ih =>
    rw [List.cons_append, firstByKeyFrom, firstByKeyFrom]
    split
    · rename_i hseen
      have hmem : key item ∈ seen := List.contains_iff_mem.1 hseen
      refine ih fun k => ?_
      rw [h k, List.map_cons, List.mem_cons]
      constructor
      · rintro (hk | rfl | hk)
        · exact Or.inl hk
        · exact Or.inl hmem
        · exact Or.inr hk
      · rintro (hk | hk)
        · exact Or.inl hk
        · exact Or.inr (Or.inr hk)
    · rw [List.cons_append, ih]
      intro k
      rw [h k, List.map_cons, List.mem_cons, List.mem_cons, or_left_comm, or_assoc]

/-- No item is kept whose key was seen before. -/
theorem not_mem_of_mem_firstByKeyFrom {item : α} (h : item ∈ firstByKeyFrom key seen items) :
    key item ∉ seen := by
  induction items generalizing seen with
  | nil => cases h
  | cons head rest ih =>
    rw [firstByKeyFrom] at h
    split at h
    · exact ih h
    · rename_i hnew
      rcases List.mem_cons.1 h with rfl | h
      · simpa using hnew
      · exact fun hmem => ih h (List.mem_cons_of_mem _ hmem)

/-- No key is kept twice. -/
theorem nodup_map_firstByKeyFrom (items : List α) :
    ((firstByKeyFrom key seen items).map key).Nodup := by
  induction items generalizing seen with
  | nil => exact List.nodup_nil
  | cons item rest ih =>
    rw [firstByKeyFrom]
    split
    · exact ih
    · rw [List.map_cons, List.nodup_cons]
      refine ⟨?_, ih⟩
      intro hmem
      obtain ⟨other, hother, heq⟩ := List.mem_map.1 hmem
      apply not_mem_of_mem_firstByKeyFrom hother
      simp [heq]

/-- The kept item is the first one with its key. -/
theorem find?_eq_of_mem_firstByKeyFrom {item : α} (h : item ∈ firstByKeyFrom key seen items) :
    items.find? (key · == key item) = some item := by
  induction items generalizing seen with
  | nil => cases h
  | cons head rest ih =>
    rw [firstByKeyFrom] at h
    split at h
    · rename_i hseen
      have hne : key head ≠ key item := by
        intro heq
        rw [heq] at hseen
        exact not_mem_of_mem_firstByKeyFrom h (List.contains_iff_mem.1 hseen)
      rw [List.find?_cons_of_neg (by simpa using hne)]
      exact ih h
    · rcases List.mem_cons.1 h with rfl | h
      · exact List.find?_cons_of_pos (by simp)
      · have hne : key head ≠ key item := by
          intro heq
          apply not_mem_of_mem_firstByKeyFrom h
          simp [heq]
        rw [List.find?_cons_of_neg (by simpa using hne)]
        exact ih h

end Lemmas

end CodeListing
