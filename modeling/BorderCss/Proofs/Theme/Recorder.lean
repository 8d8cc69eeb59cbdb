import BorderCss.Proofs.Theme.Usage
import BorderCss.Theme.Recorder

/-!
# Recorders that settle

A recorder may in general read the usage and leave keys behind when it declines. `Recorder.Settles`
says that one does neither: from every usage it comes to the same `Reading`, adds the one key of the
reading, and leaves the usage alone when it declines. The lemmas here carry this through the ways
that recorders are put together.
-/

namespace BorderCss

variable {α β : Type}

/-- What a recorder comes to: a value, and the theme key that it refers to, if any. -/
structure Reading (α : Type) where
  value : α
  key : Option ThemeKey := none

/-- A reading of another value that refers to the same key. -/
def Reading.map (f : α → β) (reading : Reading α) : Reading β :=
  ⟨f reading.value, reading.key⟩

/-- The end of a run from `usage` that comes to a reading, or declines. -/
def settle (usage : Usage) : Option (Reading α) → Option α × Usage
  | some reading => (some reading.value, usage.recordAll reading.key.toList)
  | none => (none, usage)

@[simp] theorem settle_none (usage : Usage) :
    settle usage (none : Option (Reading α)) = (none, usage) := rfl

@[simp] theorem settle_some (usage : Usage) (reading : Reading α) :
    settle usage (some reading) = (some reading.value, usage.recordAll reading.key.toList) := rfl

/-- The value of a run is that of its reading. -/
@[simp] theorem settle_fst (usage : Usage) (reading : Option (Reading α)) :
    (settle usage reading).1 = reading.map Reading.value := by
  cases reading <;> rfl

/-- The usage after a run is the one before joined with what the run leaves from nothing. -/
theorem settle_snd (usage : Usage) (reading : Option (Reading α)) :
    (settle usage reading).2 = usage.absorb (settle .empty reading).2 := by
  cases reading with
  | none => rfl
  | some reading => exact (Usage.absorb_recordAll_empty _ _).symm

/-- A run from nothing leaves at most one key. -/
theorem length_settle_empty (reading : Option (Reading α)) :
    (settle .empty reading).2.keys.length ≤ 1 := by
  obtain _ | ⟨_, _ | key⟩ := reading
  · simp [Usage.empty]
  · simp [Usage.empty]
  · simp [Usage.empty, Usage.record, insertKey]

namespace Recorder

/-- From every usage the recorder comes to `reading`, and a decline leaves the usage alone. -/
def Settles (recorder : Recorder α) (reading : Option (Reading α)) : Prop :=
  ∀ usage, recorder.runFrom usage = settle usage reading

theorem settles_pure (a : α) : (pure a : Recorder α).Settles (some ⟨a, none⟩) :=
  fun _ => rfl

theorem settles_ofOption (value : Option α) :
    (ofOption value).Settles (value.map ({ value := · })) := by
  intro usage
  cases value <;> rfl

/-- A key recorded ahead of a value is the key of the reading. -/
theorem settles_record_bind (key : ThemeKey) (a : α) :
    (record key >>= fun _ => pure a).Settles (some ⟨a, key⟩) := by
  intro usage
  rw [runFrom_bind, runFrom_record]
  rfl

/-- An optional value ahead of a recorder that settles for each value. -/
theorem Settles.ofOption_bind {value : Option α} {next : α → Recorder β}
    {reading : α → Option (Reading β)} (h : ∀ a, (next a).Settles (reading a)) :
    (ofOption value >>= next).Settles (value.bind reading) := by
  intro usage
  rw [runFrom_bind, runFrom_ofOption]
  cases value with
  | none => rfl
  | some a => exact h a usage

/-- A value computed from the one a recorder settles for. -/
theorem Settles.bind_pure {recorder : Recorder α} {reading : Option (Reading α)} (f : α → β)
    (h : recorder.Settles reading) :
    (recorder >>= fun a => pure (f a)).Settles (reading.map (Reading.map f)) := by
  intro usage
  rw [runFrom_bind, h usage]
  cases reading <;> rfl

/-- An optional value as the alternative to a recorder that settles. It starts from the usage the
recorder was given, since a decline left that alone. -/
theorem Settles.orElse_ofOption {recorder : Recorder α} {reading : Option (Reading α)}
    (h : recorder.Settles reading) (value : Option α) :
    (recorder <|> ofOption value).Settles (reading.or (value.map ({ value := · }))) := by
  intro usage
  rw [runFrom_orElse, h usage]
  cases reading with
  | none => exact settles_ofOption value usage
  | some reading => rfl

end Recorder

end BorderCss
