/-
Finite tables of records that carry their own key, as a list without repeated keys, and their view
as a multiset: looking a key up splits its record off the bag, and replacing or erasing the record
changes only that part, so that a sum over the table changes by one summand.
-/
import Mathlib.Data.Multiset.AddSub
import Mathlib.Data.List.Nodup

namespace Conc

/-- A table of records with pairwise distinct keys. -/
structure Keyed {κ α : Type} (key : α → κ) where
  items : List α
  nodup : (items.map key).Nodup

namespace Keyed

variable {κ α : Type} {key : α → κ}

/-- The records, without their order. -/
def bag (d : Keyed key) : Multiset α := (d.items : Multiset α)

instance : EmptyCollection (Keyed key) := ⟨⟨[], List.nodup_nil⟩⟩

@[simp] theorem bag_empty : (∅ : Keyed key).bag = 0 := rfl

theorem mem_bag {d : Keyed key} {a : α} : a ∈ d.bag ↔ a ∈ d.items := Multiset.mem_coe

theorem eq_of_key {d : Keyed key} {a b : α} (ha : a ∈ d.bag) (hb : b ∈ d.bag) (h : key a = key b) : a = b :=
  List.inj_on_of_nodup_map d.nodup (mem_bag.1 ha) (mem_bag.1 hb) h

variable [DecidableEq κ]

/-- The record of a key. -/
def lookup (d : Keyed key) (k : κ) : Option α := d.items.find? fun a => key a = k

/-- Remove the record of a key, if there is one. -/
def erase (d : Keyed key) (k : κ) : Keyed key :=
  ⟨d.items.filter fun a => key a ≠ k, d.nodup.sublist (List.filter_sublist.map key)⟩

theorem mem_erase {d : Keyed key} {k : κ} {a : α} : a ∈ (d.erase k).bag ↔ a ∈ d.bag ∧ key a ≠ k := by
  simp [bag, erase]

/-- Set the record of its key. -/
def put (d : Keyed key) (a : α) : Keyed key :=
  ⟨a :: (d.erase (key a)).items, by
    rw [List.map_cons, List.nodup_cons]
    refine ⟨?_, (d.erase (key a)).nodup⟩
    intro h
    obtain ⟨b, hb, he⟩ := List.mem_map.1 h
    exact (mem_erase.1 (mem_bag.2 hb)).2 he⟩

/-! ## Lookup -/

theorem lookup_some {d : Keyed key} {k : κ} {a : α} : d.lookup k = some a ↔ a ∈ d.bag ∧ key a = k := by
  constructor
  · intro h
    exact ⟨mem_bag.2 (List.mem_of_find?_eq_some h), by simpa using List.find?_some h⟩
  · rintro ⟨ha, rfl⟩
    unfold lookup
    rcases hf : d.items.find? (fun b => key b = key a) with _ | b
    · rw [List.find?_eq_none] at hf; simpa using hf a (mem_bag.1 ha)
    · have hb : b ∈ d.bag := mem_bag.2 (List.mem_of_find?_eq_some hf)
      rw [eq_of_key hb ha (by simpa using List.find?_some hf)]

theorem lookup_none {d : Keyed key} {k : κ} : d.lookup k = none ↔ ∀ a ∈ d.bag, key a ≠ k := by
  unfold lookup
  rw [List.find?_eq_none]
  simp [bag]

theorem lookup_of_mem {d : Keyed key} {a : α} (h : a ∈ d.bag) : d.lookup (key a) = some a :=
  lookup_some.2 ⟨h, rfl⟩

/-! ## The bag after an update -/

theorem bag_erase_of_none {d : Keyed key} {k : κ} (h : d.lookup k = none) : (d.erase k).bag = d.bag := by
  unfold bag erase
  simp only [ne_eq]
  rw [List.filter_eq_self.2]
  intro a ha
  simpa using lookup_none.1 h a (mem_bag.2 ha)

/-- Looking a key up splits its record off the bag. -/
theorem bag_eq_cons {d : Keyed key} {k : κ} {a : α} (h : d.lookup k = some a) :
    d.bag = a ::ₘ (d.erase k).bag := by
  obtain ⟨ha, rfl⟩ := lookup_some.1 h
  have hnd : d.items.Nodup := List.Nodup.of_map key d.nodup
  have hnd' : (a :: (d.erase (key a)).items).Nodup := by
    rw [List.nodup_cons]
    exact ⟨fun hm => (mem_erase.1 (mem_bag.2 hm)).2 rfl, List.Nodup.of_map key (d.erase (key a)).nodup⟩
  unfold bag
  rw [Multiset.cons_coe, Multiset.coe_eq_coe, List.perm_ext_iff_of_nodup hnd hnd']
  intro b
  rw [List.mem_cons, ← mem_bag, ← mem_bag, mem_erase]
  constructor
  · intro hb
    by_cases he : key b = key a
    · exact .inl (eq_of_key hb ha he)
    · exact .inr ⟨hb, he⟩
  · rintro (rfl | ⟨hb, -⟩)
    · exact ha
    · exact hb

@[simp] theorem bag_put (d : Keyed key) (a : α) : (d.put a).bag = a ::ₘ (d.erase (key a)).bag := rfl

theorem bag_put_of_none {d : Keyed key} {a : α} (h : d.lookup (key a) = none) :
    (d.put a).bag = a ::ₘ d.bag := by
  rw [bag_put, bag_erase_of_none h]

/-! ## Lookup after an update -/

@[simp] theorem lookup_put_self (d : Keyed key) (a : α) : (d.put a).lookup (key a) = some a :=
  lookup_some.2 ⟨by simp, rfl⟩

theorem put_put (d : Keyed key) {a b : α} (h : key a = key b) : (d.put a).put b = d.put b := by
  unfold put
  congr 2
  simp [erase, h]

theorem lookup_put_ne (d : Keyed key) {a : α} {k : κ} (h : key a ≠ k) :
    (d.put a).lookup k = d.lookup k := by
  rcases hl : d.lookup k with _ | b
  · rw [lookup_none] at hl ⊢
    intro c hc
    rw [bag_put, Multiset.mem_cons, mem_erase] at hc
    rcases hc with rfl | ⟨hc, -⟩
    · exact h
    · exact hl c hc
  · obtain ⟨hb, rfl⟩ := lookup_some.1 hl
    exact lookup_some.2 ⟨by rw [bag_put, Multiset.mem_cons, mem_erase]; exact .inr ⟨hb, fun e => h e.symm⟩, rfl⟩

@[simp] theorem lookup_erase_self (d : Keyed key) (k : κ) : (d.erase k).lookup k = none :=
  lookup_none.2 fun _ ha => (mem_erase.1 ha).2

theorem lookup_erase_ne (d : Keyed key) {k k' : κ} (h : k ≠ k') : (d.erase k).lookup k' = d.lookup k' := by
  rcases hl : d.lookup k' with _ | b
  · rw [lookup_none] at hl ⊢
    exact fun c hc => hl c (mem_erase.1 hc).1
  · obtain ⟨hb, rfl⟩ := lookup_some.1 hl
    exact lookup_some.2 ⟨mem_erase.2 ⟨hb, fun e => h e.symm⟩, rfl⟩

end Keyed

end Conc
