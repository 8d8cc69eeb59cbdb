import Mathlib.Data.List.Sort
import BorderCss.Theme.Usage

/-!
# Usages as sets of keys

A usage is determined by its members (`Usage.ext_mem`), and every operation is described by the
members it leaves: `mem_record`, `mem_recordAll` and `mem_absorb`. Recording a key that is there
changes nothing.
-/

namespace BorderCss

instance : Std.Irrefl (α := ThemeKey) (· < ·) := ⟨ThemeKey.lt_irrefl⟩

instance : Std.Antisymm (α := ThemeKey) (· < ·) :=
  ⟨fun a _ hab hba => absurd (ThemeKey.lt_trans hab hba) (ThemeKey.lt_irrefl a)⟩

namespace Usage

/-- Two usages with the same members are equal, since each lists its own in ascending order. -/
theorem ext_mem {a b : Usage} (h : ∀ key, key ∈ a.keys ↔ key ∈ b.keys) : a = b := by
  obtain ⟨_, ha⟩ := a
  obtain ⟨_, hb⟩ := b
  cases ha.eq_of_mem_iff hb h
  rfl

@[simp] theorem mem_empty {key : ThemeKey} : key ∈ empty.keys ↔ False := by
  simp [empty]

@[simp] theorem mem_record {usage : Usage} {key k : ThemeKey} :
    k ∈ (usage.record key).keys ↔ k = key ∨ k ∈ usage.keys :=
  mem_insertKey

@[simp] theorem mem_recordAll {keys : List ThemeKey} {usage : Usage} {k : ThemeKey} :
    k ∈ (usage.recordAll keys).keys ↔ k ∈ keys ∨ k ∈ usage.keys := by
  induction keys generalizing usage with
  | nil => simp [recordAll]
  | cons key rest ih =>
    rw [recordAll, List.foldl_cons, ← recordAll, ih, mem_record, List.mem_cons]
    exact or_left_comm.trans or_assoc.symm

@[simp] theorem mem_absorb {usage other : Usage} {k : ThemeKey} :
    k ∈ (usage.absorb other).keys ↔ k ∈ usage.keys ∨ k ∈ other.keys := by
  rw [absorb, mem_recordAll]
  exact or_comm

/-- Recording a member changes nothing. -/
theorem record_of_mem {usage : Usage} {key : ThemeKey} (h : key ∈ usage.keys) :
    usage.record key = usage := by
  refine ext_mem fun k => ?_
  rw [mem_record]
  refine ⟨?_, .inr⟩
  rintro (rfl | hk)
  exacts [h, hk]

@[simp] theorem recordAll_nil (usage : Usage) : usage.recordAll [] = usage := rfl

@[simp] theorem recordAll_singleton (usage : Usage) (key : ThemeKey) :
    usage.recordAll [key] = usage.record key := rfl

@[simp] theorem absorb_empty (usage : Usage) : usage.absorb empty = usage := rfl

/-- Absorbing what was recorded from nothing is recording it here. -/
theorem absorb_recordAll_empty (usage : Usage) (keys : List ThemeKey) :
    usage.absorb (empty.recordAll keys) = usage.recordAll keys := by
  refine ext_mem fun k => ?_
  simp only [mem_absorb, mem_recordAll, mem_empty, or_false]
  exact or_comm

end Usage

end BorderCss
