import Mathlib.Data.List.Pairwise
import Mathlib.Data.List.Sort

/-!
# Sorting by an address

Regions of memory and ranges of code are sorted by the address at which they start.  Items with
different addresses are then in the order of their addresses, and items with one address stay in the
order in which they were given.
-/

set_option autoImplicit false

namespace CodeListing

variable {α : Type} {address : α → UInt64}

/-- The order by address is transitive. -/
theorem decide_address_le_trans (a b c : α) (hab : decide (address a ≤ address b) = true)
    (hbc : decide (address b ≤ address c) = true) : decide (address a ≤ address c) = true :=
  decide_eq_true (UInt64.le_trans (of_decide_eq_true hab) (of_decide_eq_true hbc))

/-- The order by address is total. -/
theorem decide_address_le_total (a b : α) :
    (decide (address a ≤ address b) || decide (address b ≤ address a)) = true := by
  rw [Bool.or_eq_true, decide_eq_true_iff, decide_eq_true_iff]
  exact UInt64.le_total (address a) (address b)

/-- Sorted items are in the order of their addresses. -/
theorem pairwise_mergeSort_address (items : List α) :
    (items.mergeSort fun a b => address a ≤ address b).Pairwise
      fun a b => address a ≤ address b :=
  (List.pairwise_mergeSort decide_address_le_trans decide_address_le_total items).imp
    of_decide_eq_true

/-- If no item is lost or added and items that are in order stay so, then the items with one address
stay in the order given. -/
theorem filter_address_eq_of_sublist {items sorted : List α} (hperm : sorted.Perm items)
    (hkeeps : ∀ kept : List α, (kept.Pairwise fun a b => address a ≤ address b) →
      kept.Sublist items → kept.Sublist sorted) (place : UInt64) :
    sorted.filter (address · == place) = items.filter (address · == place) := by
  have hsame : (items.filter (address · == place)).Pairwise fun a b => address a ≤ address b := by
    refine List.pairwise_of_forall_mem_list fun a ha b hb => ?_
    have haddress : address a = place := by simpa using (List.mem_filter.1 ha).2
    have haddress' : address b = place := by simpa using (List.mem_filter.1 hb).2
    rw [haddress, haddress']
    exact UInt64.le_refl place
  have hsub := hkeeps _ hsame List.filter_sublist
  -- No item is lost or added, so the items with the address that stay in order are all of them.
  have hlength := (hperm.filter (address · == place)).length_eq
  refine (List.Sublist.eq_of_length ?_ hlength.symm).symm
  have hfilter := hsub.filter (address · == place)
  rwa [List.filter_filter, show (fun a => address a == place && address a == place) =
    (address · == place) from funext fun a => Bool.and_self _] at hfilter

/-- The items with one address stay in the order given. -/
theorem filter_mergeSort_address (items : List α) (place : UInt64) :
    (items.mergeSort fun a b => address a ≤ address b).filter (address · == place) =
      items.filter (address · == place) :=
  filter_address_eq_of_sublist (List.mergeSort_perm items _)
    (fun _ hkept => List.sublist_mergeSort decide_address_le_trans decide_address_le_total
      (hkept.imp decide_eq_true)) place

/-- A relation holds along the sorted list if it holds from every lower address to every higher one,
and for items with one address in the order given. -/
theorem pairwise_mergeSort_iff {items : List α} {R : α → α → Prop} :
    (items.mergeSort fun a b => address a ≤ address b).Pairwise R ↔
      (∀ a ∈ items, ∀ b ∈ items, address a < address b → R a b) ∧
        items.Pairwise fun a b => address a = address b → R a b := by
  constructor
  · intro h
    refine ⟨?_, ?_⟩
    · -- Whichever of the two comes first in the sorted list, it is the one with the lower address.
      have hboth : (items.mergeSort fun a b => address a ≤ address b).Pairwise fun a b =>
          (address a < address b → R a b) ∧ (address b < address a → R b a) := by
        refine (h.and (pairwise_mergeSort_address items)).imp fun hab => ⟨fun _ => hab.1, ?_⟩
        intro hlt
        exact absurd hab.2 (UInt64.not_le.2 hlt)
      have : Std.Symm fun a b =>
          (address a < address b → R a b) ∧ (address b < address a → R b a) :=
        ⟨fun _ _ hab => ⟨hab.2, hab.1⟩⟩
      intro a ha b hb
      refine (hboth.forall_of_forall ?_ (List.mem_mergeSort.2 ha) (List.mem_mergeSort.2 hb)).1
      exact fun x _ => ⟨fun hlt => absurd hlt (UInt64.lt_irrefl _),
        fun hlt => absurd hlt (UInt64.lt_irrefl _)⟩
    · rw [List.pairwise_iff_forall_sublist] at h ⊢
      intro a b hsub heq
      exact h (List.pair_sublist_mergeSort decide_address_le_trans decide_address_le_total
        (decide_eq_true (UInt64.le_of_eq heq)) hsub)
  · rintro ⟨hlower, hequal⟩
    rw [List.pairwise_iff_forall_sublist] at hequal ⊢
    intro a b hsub
    have hle : address a ≤ address b :=
      List.pairwise_iff_forall_sublist.1 (pairwise_mergeSort_address items) hsub
    rcases UInt64.lt_or_eq_of_le hle with hlt | heq
    · exact hlower a (List.mem_mergeSort.1 (hsub.subset (by simp))) b
        (List.mem_mergeSort.1 (hsub.subset (by simp))) hlt
    · refine hequal ?_ heq
      have hfilter := hsub.filter (address · == address b)
      rw [filter_mergeSort_address] at hfilter
      have hpair : [a, b].filter (address · == address b) = [a, b] := by simp [heq]
      rw [hpair] at hfilter
      exact hfilter.trans List.filter_sublist

/-- Lists with the same items at each address have the same items. -/
theorem mem_iff_of_filter_address_eq {items others : List α}
    (h : ∀ place, items.filter (address · == place) = others.filter (address · == place))
    (item : α) : item ∈ items ↔ item ∈ others := by
  have hiff : item ∈ items.filter (address · == address item) ↔
      item ∈ others.filter (address · == address item) := by rw [h]
  simpa [List.mem_filter] using hiff

/-- A sorted list is determined by what it has at each address. -/
theorem eq_of_filter_address_eq {items others : List α}
    (hitems : items.Pairwise fun a b => address a ≤ address b)
    (hothers : others.Pairwise fun a b => address a ≤ address b)
    (h : ∀ place, items.filter (address · == place) = others.filter (address · == place)) :
    items = others := by
  have hmem := mem_iff_of_filter_address_eq h
  induction items generalizing others with
  | nil =>
    cases others with
    | nil => rfl
    | cons other rest => simpa using hmem other
  | cons item rest ih =>
    cases others with
    | nil => simpa using hmem item
    | cons other rest' =>
      obtain ⟨hleast, hrest⟩ := List.pairwise_cons.1 hitems
      obtain ⟨hleast', hrest'⟩ := List.pairwise_cons.1 hothers
      -- Both heads have the lowest address, so they have the same one.
      have hle : address item ≤ address other := by
        rcases List.mem_cons.1 ((hmem other).2 List.mem_cons_self) with rfl | hother
        · exact UInt64.le_refl _
        · exact hleast other hother
      have hge : address other ≤ address item := by
        rcases List.mem_cons.1 ((hmem item).1 List.mem_cons_self) with rfl | hitem
        · exact UInt64.le_refl _
        · exact hleast' item hitem
      have haddress : address other = address item := UInt64.le_antisymm hge hle
      have hheads := h (address item)
      simp only [List.filter_cons, haddress, beq_self_eq_true, if_true] at hheads
      obtain ⟨rfl, -⟩ := List.cons.inj hheads
      have htails : ∀ place, rest.filter (address · == place) =
          rest'.filter (address · == place) := by
        intro place
        have hplace := h place
        simp only [List.filter_cons] at hplace
        split at hplace
        · exact (List.cons.inj hplace).2
        · exact hplace
      rw [ih hrest hrest' htails (mem_iff_of_filter_address_eq htails)]

/-- Sorting by insertion, which the kernel can evaluate, gives the same order. -/
theorem mergeSort_address_eq_insertionSort (items : List α) :
    (items.mergeSort fun a b => address a ≤ address b) =
      items.insertionSort fun a b => address a ≤ address b := by
  have htrans : IsTrans α fun a b => address a ≤ address b := ⟨fun _ _ _ => UInt64.le_trans⟩
  have htotal : Std.Total fun a b : α => address a ≤ address b :=
    ⟨fun a b => UInt64.le_total (address a) (address b)⟩
  refine eq_of_filter_address_eq (pairwise_mergeSort_address items)
    (List.pairwise_insertionSort _ items) fun place => ?_
  rw [filter_mergeSort_address, filter_address_eq_of_sublist (List.perm_insertionSort _ items)]
  exact fun _ hkept => List.sublist_insertionSort hkept

section ReadOff

variable {β : Type} {address' : β → UInt64} {f : α → Option β}
  (h : ∀ item read, f item = some read → address' read = address item)

include h

/-- What is read off items is found at an address by reading it off the items there. -/
theorem filter_filterMap_address (items : List α) (place : UInt64) :
    (items.filterMap f).filter (address' · == place) =
      (items.filter (address · == place)).filterMap f := by
  induction items with
  | nil => rfl
  | cons item rest ih =>
    cases hread : f item with
    | none =>
      rw [List.filterMap_cons_none hread, ih, List.filter_cons]
      split
      · rw [List.filterMap_cons_none hread]
      · rfl
    | some read =>
      rw [List.filterMap_cons_some hread, List.filter_cons, h item read hread, ih,
        List.filter_cons]
      split
      · rw [List.filterMap_cons_some hread]
      · rfl

/-- What is read off sorted items, with their addresses, is what is read off the items, sorted. -/
theorem filterMap_mergeSort_address (items : List α) :
    (items.mergeSort fun a b => address a ≤ address b).filterMap f =
      (items.filterMap f).mergeSort fun a b => address' a ≤ address' b := by
  refine eq_of_filter_address_eq ?_ (pairwise_mergeSort_address _) fun place => ?_
  · rw [List.pairwise_filterMap]
    refine (pairwise_mergeSort_address items).imp ?_
    intro a b hle read hread read' hread'
    rw [h a read hread, h b read' hread']
    exact hle
  · rw [filter_mergeSort_address, filter_filterMap_address h, filter_filterMap_address h,
      filter_mergeSort_address]

end ReadOff

end CodeListing
