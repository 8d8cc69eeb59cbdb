import BorderCss.Theme.Usage

/-!
# Recording theme keys

A `Recorder` is a computation that may decline, and that records the theme keys it refers to on its
way. What it recorded before it declined stays recorded, and an alternative tried after a decline
goes on from there. `Recorder.runFrom` runs one over a usage.
-/

namespace BorderCss

/-- A computation that may decline, over the usage it adds keys to. -/
abbrev Recorder := OptionT (StateM Usage)

namespace Recorder

variable {α β : Type}

/-- What the recorder yields, if it does not decline, and the usage it leaves. -/
def runFrom (recorder : Recorder α) (usage : Usage) : Option α × Usage :=
  recorder.run.run usage

/-- One more key is referred to. -/
def record (key : ThemeKey) : Recorder Unit :=
  modify (·.record key)

/-- An optional value; nothing is recorded. -/
def ofOption : Option α → Recorder α
  | some a => pure a
  | none => failure

@[simp] theorem runFrom_pure (a : α) (usage : Usage) :
    (pure a : Recorder α).runFrom usage = (some a, usage) := rfl

@[simp] theorem runFrom_failure (usage : Usage) :
    (failure : Recorder α).runFrom usage = (none, usage) := rfl

@[simp] theorem runFrom_record (key : ThemeKey) (usage : Usage) :
    (record key).runFrom usage = (some (), usage.record key) := rfl

@[simp] theorem runFrom_ofOption (value : Option α) (usage : Usage) :
    (ofOption value).runFrom usage = (value, usage) := by
  cases value <;> rfl

/-- A step and what follows it: a decline ends the run with what was recorded so far. -/
theorem runFrom_bind (recorder : Recorder α) (next : α → Recorder β) (usage : Usage) :
    (recorder >>= next).runFrom usage =
      match recorder.runFrom usage with
      | (some a, usage) => (next a).runFrom usage
      | (none, usage) => (none, usage) := by
  simp only [runFrom, OptionT.run_bind, Option.elimM, StateT.run_bind]
  obtain ⟨_ | a, after⟩ : Option α × Usage := recorder.run.run usage <;> rfl

/-- An alternative: it starts from the usage that the declined recorder left. -/
theorem runFrom_orElse (recorder other : Recorder α) (usage : Usage) :
    (recorder <|> other).runFrom usage =
      match recorder.runFrom usage with
      | (some a, usage) => (some a, usage)
      | (none, usage) => other.runFrom usage := by
  simp only [runFrom, OptionT.run_orElse, Option.elimM, StateT.run_bind]
  obtain ⟨_ | a, after⟩ : Option α × Usage := recorder.run.run usage <;> rfl

end Recorder

end BorderCss
