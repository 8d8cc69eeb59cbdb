import BorderCss.Proofs.Rule.Outcome
import BorderCss.Theme.Preset
import Mathlib.Data.List.Induction

/-!
# Gathering theme keys

What a usage holds in the end depends on few things of its history. Resolving a token adds keys that
depend on the token alone (`mem_resolveToken`) and absorbing a usage adds its members, so it only
matters which tokens were resolved, into whichever usage: `Gathering` is any way to do so. After
record, absorb, resolve and clear in any order, what counts are the steps since the last clear
(`mem_runSteps`). The main statement is `Gathering.usage_eq`.
-/

namespace BorderCss

/-! ## Histories of one usage -/

/-- One thing that may be done to a usage. -/
inductive UsageStep where
  | record (key : ThemeKey)
  | absorb (other : Usage)
  | resolve (token : String)
  | clear
deriving DecidableEq

namespace UsageStep

variable (rules : List Rule) (theme : Theme)

/-- The usage after a step. -/
def run (usage : Usage) : UsageStep → Usage
  | record key => usage.record key
  | absorb other => usage.absorb other
  | resolve token => (resolveToken rules theme token usage).2
  | clear => .empty

/-- The keys that a step records or absorbs. -/
def keys : UsageStep → List ThemeKey
  | record key => [key]
  | absorb other => other.keys
  | resolve token => tokenKeys rules theme token
  | clear => []

variable {rules theme} {usage : Usage} {step : UsageStep} {key : ThemeKey}

/-- A step other than a clear adds its keys. -/
theorem mem_run (h : step ≠ clear) :
    key ∈ (step.run rules theme usage).keys ↔
      key ∈ usage.keys ∨ key ∈ step.keys rules theme := by
  cases step with
  | record recorded =>
    rw [run, keys, Usage.mem_record, List.mem_singleton]
    exact or_comm
  | absorb other => exact Usage.mem_absorb
  | resolve token => exact mem_resolveToken
  | clear => exact absurd rfl h

end UsageStep

/-- The steps of a history since its last clear. -/
def sinceClear (steps : List UsageStep) : List UsageStep :=
  (steps.reverse.takeWhile (· ≠ .clear)).reverse

@[simp] theorem sinceClear_nil : sinceClear [] = [] := rfl

@[simp] theorem sinceClear_concat_clear (steps : List UsageStep) :
    sinceClear (steps ++ [.clear]) = [] := by
  simp [sinceClear]

theorem sinceClear_concat {step : UsageStep} (h : step ≠ .clear) (steps : List UsageStep) :
    sinceClear (steps ++ [step]) = sinceClear steps ++ [step] := by
  simp [sinceClear, h]

variable {rules : List Rule} {theme : Theme} {key : ThemeKey}

/-- After any history, a fresh usage holds the keys of the steps since the last clear. -/
theorem mem_runSteps (steps : List UsageStep) :
    key ∈ (steps.foldl (UsageStep.run rules theme) .empty).keys ↔
      ∃ step ∈ sinceClear steps, key ∈ step.keys rules theme := by
  induction steps using List.reverseRecOn with
  | nil => simp
  | append_singleton steps step ih =>
    rw [List.foldl_concat]
    by_cases h : step = .clear
    · rw [h, sinceClear_concat_clear, UsageStep.run]
      simp
    · rw [UsageStep.mem_run h, ih, sinceClear_concat h]
      simp only [List.mem_append, List.mem_singleton, or_and_right, exists_or, exists_eq_left]

/-! ## Several usages -/

/-- A way to fill a usage, starting from a fresh one: tokens are resolved into it, and usages that
were filled in the same way are absorbed into it. -/
inductive Gathering where
  | fresh
  | resolve (before : Gathering) (token : String)
  | absorb (before other : Gathering)

namespace Gathering

/-- The tokens that are resolved on the way, into whichever usage. -/
def tokens : Gathering → List String
  | fresh => []
  | resolve before token => before.tokens ++ [token]
  | absorb before other => before.tokens ++ other.tokens

variable (rules theme) in
/-- The usage in the end. -/
def usage : Gathering → Usage
  | fresh => .empty
  | resolve before token => (resolveToken rules theme token before.usage).2
  | absorb before other => before.usage.absorb other.usage

/-- A usage that was gathered holds the keys of every token that was resolved. -/
theorem mem_usage (gathering : Gathering) :
    key ∈ (gathering.usage rules theme).keys ↔
      ∃ token ∈ gathering.tokens, key ∈ tokenKeys rules theme token := by
  induction gathering with
  | fresh => simp [usage, Gathering.tokens]
  | resolve before token ih =>
    rw [usage, mem_resolveToken, ih, tokens]
    simp only [List.mem_append, List.mem_singleton, or_and_right, exists_or, exists_eq_left]
  | absorb before other ihbefore ihother =>
    rw [usage, Usage.mem_absorb, ihbefore, ihother, tokens]
    simp only [List.mem_append, or_and_right, exists_or]

end Gathering

/-- Resolving a list of tokens one after the other adds the keys of all of them. -/
theorem mem_foldl_resolveToken (tokens : List String) (usage : Usage) :
    key ∈ (tokens.foldl (fun usage token => (resolveToken rules theme token usage).2) usage).keys ↔
      key ∈ usage.keys ∨ ∃ token ∈ tokens, key ∈ tokenKeys rules theme token := by
  induction tokens generalizing usage with
  | nil => simp
  | cons token rest ih =>
    rw [List.foldl_cons, ih, mem_resolveToken, or_assoc, List.exists_mem_cons_iff]

/-- Whichever usages the tokens of a list are resolved into, in any order and with repeats, once all
of these are absorbed into one, in any order and grouping and possibly more than once, it is the
usage that resolving the list from its start to its end leaves. More generally, after any history of
record, absorb, resolve and clear, a usage holds exactly the keys that were recorded or absorbed
since the last clear. -/
theorem Gathering.usage_eq (rules : List Rule) (theme : Theme) :
    (∀ (gathering : Gathering) (tokens : List String),
      (∀ token, token ∈ gathering.tokens ↔ token ∈ tokens) →
      gathering.usage rules theme =
        tokens.foldl (fun usage token => (resolveToken rules theme token usage).2) .empty) ∧
    ∀ (steps : List UsageStep) (key : ThemeKey),
      key ∈ (steps.foldl (UsageStep.run rules theme) .empty).keys ↔
        ∃ step ∈ sinceClear steps, key ∈ step.keys rules theme := by
  refine ⟨fun gathering tokens htokens => Usage.ext_mem fun key => ?_,
    fun steps key => mem_runSteps steps⟩
  rw [gathering.mem_usage, mem_foldl_resolveToken, Usage.mem_empty, false_or]
  simp only [htokens]

/-- Two tokens of the built-in theme, the first of them resolved into both of two usages, of which
the second is absorbed into the first twice. -/
theorem Gathering.usage_eq_twice :
    let first := Gathering.fresh.resolve "rounded-md"
    let second := (Gathering.fresh.resolve "b-red-500").resolve "rounded-md"
    ((first.absorb second).absorb second).usage borderRules .preset =
      ["b-red-500", "rounded-md"].foldl
        (fun usage token => (resolveToken borderRules .preset token usage).2) .empty := by
  refine (usage_eq borderRules .preset).1 _ _ fun token => ?_
  simp only [Gathering.tokens, List.nil_append, List.cons_append, List.mem_cons, List.not_mem_nil,
    or_false]
  tauto

end BorderCss
