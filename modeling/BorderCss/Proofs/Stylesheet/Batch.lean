import BorderCss.Proofs.Rule.Shape
import BorderCss.Stylesheet
import BorderCss.Theme.Preset

/-!
# The stylesheet of a batch

A pass that generates a stylesheet builds a `Batch` token by token, skips the tokens that the batch
knows, and collects theme keys on the way. `Pass.batch` is the batch of a list of tokens, read off
its distinct tokens without the pass: one more token takes it to the batch of one more token
(`Pass.add_batch`), so a run over tokens ends at the batch of all of them (`Pass.collect_batch`).
The main statement is `Pass.generate_eq`.
-/

namespace BorderCss

/-! ## The batch of a list of tokens -/

namespace Pass

variable (pass : Pass)

/-- The styling of a token under the rules and the theme of the pass. -/
def styling? (token : String) : Option Styling :=
  tokenStyling? pass.rules pass.theme token

/-- The rule that gives a token's class its declarations, if the token has a styling. -/
def classRule? (token : String) : Option String :=
  (pass.styling? token).map fun styling =>
    "." ++ escapeClass token ++ "\x7b" ++
      String.join (styling.declarations.map fun d => d.property ++ ":" ++ d.value ++ ";") ++ "\x7d"

/-- The class rules of the distinct tokens, in the order in which the tokens are first met. -/
def classRules (tokens : List String) : List String :=
  tokens.eraseDups.filterMap pass.classRule?

/-- The distinct preludes of the tokens' stylings, in the order in which they are first met. -/
def preludes (tokens : List String) : List String :=
  ((tokens.eraseDups.filterMap pass.styling?).flatMap (·.preludes)).eraseDups

/-- The distinct tokens that have a styling. -/
def matched (tokens : List String) : List String :=
  tokens.eraseDups.filter fun token => (pass.styling? token).isSome

/-- The distinct tokens that have none. -/
def unmatched (tokens : List String) : List String :=
  tokens.eraseDups.filter fun token => (pass.styling? token).isNone

/-- The batch of a list of tokens. -/
def batch (tokens : List String) : Batch where
  preludes := pass.preludes tokens
  lines := pass.classRules tokens
  matched := pass.matched tokens
  unmatched := pass.unmatched tokens

variable {pass} {token : String} {seen : List String}

/-- A batch knows the tokens that it was made of. -/
theorem knows_batch : (pass.batch seen).knows token = true ↔ token ∈ seen := by
  rw [Batch.knows, Bool.or_eq_true, List.contains_iff_mem, List.contains_iff_mem]
  simp only [batch, matched, unmatched, List.mem_filter, List.mem_eraseDups]
  cases pass.styling? token <;> simp

/-- A token that was met before leaves the batch as it is. -/
theorem batch_concat_of_mem (h : token ∈ seen) :
    pass.batch (seen ++ [token]) = pass.batch seen := by
  have hdistinct : (seen ++ [token]).eraseDups = seen.eraseDups := by
    rw [eraseDups_concat, addOnce_of_mem (List.mem_eraseDups.2 h)]
  simp only [batch, preludes, classRules, matched, unmatched, hdistinct]

theorem toClassCss_ofBlock (styling : Styling) (token : String) :
    (Styling.ofBlock styling.block).toClassCss token =
      "." ++ escapeClass token ++ "\x7b" ++
        String.join (styling.declarations.map fun d => d.property ++ ":" ++ d.value ++ ";") ++
        "\x7d" := by
  rw [Styling.toClassCss, Styling.toCss, Styling.declarations, ← Block.text]
  simp [Styling.ofBlock]

/-- A new token takes a batch to that of one more token. -/
theorem add_batch (h : token ∉ seen) :
    (pass.batch seen).add token (pass.styling? token) = pass.batch (seen ++ [token]) := by
  have hdistinct : (seen ++ [token]).eraseDups = seen.eraseDups ++ [token] := by
    rw [eraseDups_concat, addOnce, if_neg (mt List.mem_eraseDups.1 h)]
  cases hstyling : pass.styling? token with
  | none =>
    simp [Batch.add, batch, preludes, classRules, classRule?, matched, unmatched, hdistinct,
      hstyling]
  | some styling =>
    have hpreludes : styling.preludes.foldl addOnce (pass.preludes seen) =
        pass.preludes (seen ++ [token]) := by
      rw [preludes, foldl_addOnce, preludes, hdistinct, List.filterMap_append, List.flatMap_append]
      simp [hstyling]
    simp [Batch.add, batch, hpreludes, classRules, classRule?, matched, unmatched, hdistinct,
      hstyling, toClassCss_ofBlock]

/-! ## Runs over tokens -/

/-- A run from the batch of the tokens seen so far ends at the batch of all tokens. -/
theorem collect_batch (pass : Pass) (seen tokens : List String) :
    (pass.collect (pass.batch seen) tokens).1 = pass.batch (seen ++ tokens) := by
  induction tokens generalizing pass seen with
  | nil => rw [collect, List.append_nil]
  | cons token rest ih =>
    rw [collect]
    split
    · next hknown =>
      rw [← batch_concat_of_mem (knows_batch.1 hknown), ih, List.append_assoc,
        List.singleton_append]
    · next hnew =>
      have hstyling : (pass.resolve token).1 = pass.styling? token := resolveToken_fst
      -- the pass after the token has other keys, but the same batches
      have hrest := ih (pass.resolve token).2 (seen ++ [token])
      rw [List.append_assoc, List.singleton_append] at hrest
      rw [hstyling, add_batch (mt knows_batch.2 hnew)]
      exact hrest

/-- A run adds the keys of its tokens to the pass and changes nothing else, when the keys of the
tokens that it skips were added before. -/
theorem collect_pass (pass : Pass) (seen tokens : List String)
    (hseen : ∀ token ∈ seen, ∀ key ∈ tokenKeys pass.rules pass.theme token,
      key ∈ pass.usage.keys) :
    ∃ usage, (pass.collect (pass.batch seen) tokens).2 = { pass with usage } ∧
      ∀ key, key ∈ usage.keys ↔ key ∈ pass.usage.keys ∨
        ∃ token ∈ tokens, key ∈ tokenKeys pass.rules pass.theme token := by
  induction tokens generalizing pass seen with
  | nil => exact ⟨pass.usage, rfl, by simp⟩
  | cons token rest ih =>
    rw [collect]
    split
    · next hknown =>
      obtain ⟨usage, hpass, husage⟩ := ih pass seen hseen
      refine ⟨usage, hpass, fun key => ?_⟩
      have htoken := hseen token (knows_batch.1 hknown) key
      rw [husage, List.exists_mem_cons_iff]
      tauto
    · next hnew =>
      have hstyling : (pass.resolve token).1 = pass.styling? token := resolveToken_fst
      have hresolve : ∀ key, key ∈ (pass.resolve token).2.usage.keys ↔
          key ∈ pass.usage.keys ∨ key ∈ tokenKeys pass.rules pass.theme token :=
        fun key => mem_resolveToken
      have hseen' : ∀ t ∈ seen ++ [token], ∀ key ∈ tokenKeys pass.rules pass.theme t,
          key ∈ (pass.resolve token).2.usage.keys := by
        intro t ht key hkey
        rw [hresolve]
        rcases List.mem_append.1 ht with ht | ht
        · exact .inl (hseen t ht key hkey)
        · rw [List.mem_singleton.1 ht] at hkey
          exact .inr hkey
      obtain ⟨usage, hpass, husage⟩ := ih (pass.resolve token).2 (seen ++ [token]) hseen'
      rw [hstyling, add_batch (mt knows_batch.2 hnew)]
      refine ⟨usage, hpass, fun key => (husage key).trans ?_⟩
      rw [hresolve, or_assoc, List.exists_mem_cons_iff]
      rfl

/-- Generating a stylesheet adds the keys of the tokens to the pass and changes nothing else. -/
theorem generate_pass (pass : Pass) (tokens : List String) :
    ∃ usage, (pass.generate tokens).2 = { pass with usage } ∧
      ∀ key, key ∈ usage.keys ↔ key ∈ pass.usage.keys ∨
        ∃ token ∈ tokens, key ∈ tokenKeys pass.rules pass.theme token :=
  pass.collect_pass [] tokens nofun

/-- A batch has the same preludes in whichever order its tokens come, since there is only one that a
token may rely on. -/
theorem preludes_perm (pass : Pass) {tokens others : List String} (h : others.Perm tokens) :
    pass.preludes others = pass.preludes tokens := by
  have hone : ∀ tokens, ∀ prelude ∈ pass.preludes tokens,
      prelude = "@property --un-border-opacity" ++
        "\x7bsyntax:\"<number>\";inherits:false;initial-value:1;\x7d" := by
    intro tokens prelude hprelude
    rw [preludes, List.mem_eraseDups, List.mem_flatMap] at hprelude
    obtain ⟨styling, hstyling, hmem⟩ := hprelude
    obtain ⟨token, -, htoken⟩ := List.mem_filterMap.1 hstyling
    obtain ⟨utility, hshape⟩ := tokenStyling?_shape htoken
    exact hshape.preludes prelude hmem
  have hperm : (pass.preludes others).Perm (pass.preludes tokens) :=
    perm_eraseDups (((perm_eraseDups h).filterMap _).flatMap_right _)
  rw [List.eq_replicate_of_mem (hone others), List.eq_replicate_of_mem (hone tokens),
    hperm.length_eq]

/-- The stylesheet of a list of tokens, of which only the distinct ones count, in the order in which
they are first met. It lists those that have a styling and those that have none. Its text has the
distinct preludes of the stylings first and then a class rule for every styling, a line each. What
the pass has recorded before makes no difference. A permutation of the tokens gives the same class
rules in another order, the same preludes, and a pass with the same usage and root rule. -/
theorem generate_eq (pass : Pass) (tokens : List String) :
    (pass.generate tokens).1 =
      { css := String.intercalate "\n" (pass.preludes tokens ++ pass.classRules tokens)
        matched := pass.matched tokens
        unmatched := pass.unmatched tokens } ∧
    (∀ usage, ({ pass with usage }.generate tokens).1 = (pass.generate tokens).1) ∧
    ∀ others : List String, others.Perm tokens →
      (pass.classRules others).Perm (pass.classRules tokens) ∧
      pass.preludes others = pass.preludes tokens ∧
      (pass.generate others).2.usage = (pass.generate tokens).2.usage ∧
      (pass.generate others).2.rootBlock = (pass.generate tokens).2.rootBlock := by
  have hsheet : ∀ pass : Pass, (pass.generate tokens).1 = (pass.batch tokens).finish :=
    fun pass => congrArg Batch.finish (pass.collect_batch [] tokens)
  refine ⟨hsheet pass, fun usage => (hsheet _).trans (hsheet pass).symm, fun others hperm => ?_⟩
  have hpass : (pass.generate others).2 = (pass.generate tokens).2 := by
    obtain ⟨usage, htokens, husage⟩ := pass.generate_pass tokens
    obtain ⟨usage', hothers, husage'⟩ := pass.generate_pass others
    have hsame : usage' = usage := by
      refine Usage.ext_mem fun key => ?_
      simp only [husage, husage', hperm.mem_iff]
    rw [htokens, hothers, hsame]
  exact ⟨(perm_eraseDups hperm).filterMap _, pass.preludes_perm hperm, by rw [hpass], by rw [hpass]⟩

/-- Two colours of the built-in theme, one of them twice, around a token without a styling. -/
theorem generate_eq_permuted :
    let pass : Pass := { theme := .preset }
    let tokens := ["b-red-500", "p-4", "b-x-black", "b-red-500"]
    let others := ["b-x-black", "b-red-500", "b-red-500", "p-4"]
    others.Perm tokens ∧ (pass.classRules others).Perm (pass.classRules tokens) ∧
      pass.preludes others = pass.preludes tokens ∧
      (pass.generate others).2.usage = (pass.generate tokens).2.usage ∧
      (pass.generate others).2.rootBlock = (pass.generate tokens).2.rootBlock := by
  intro pass tokens others
  have hperm : others.Perm tokens := by decide +kernel
  exact ⟨hperm, (generate_eq pass tokens).2.2 others hperm⟩

end Pass

end BorderCss
