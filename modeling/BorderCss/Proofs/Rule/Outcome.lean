import BorderCss.Proofs.Theme.Recorder
import BorderCss.Rule.Resolution

/-!
# Outcomes of rules

The recorders that resolve a token settle. Each of them has an outcome here, a `Reading` that says
what it yields and which theme key it refers to without a usage to record in, and a lemma
`…_settles`: it comes to that outcome from every usage, and when it declines it has recorded
nothing. For a list of rules the outcome is that of the first rule that has one (`resolveToken_eq`).
-/

namespace BorderCss

variable {theme : Theme}

/-! ## Values -/

/-- A fragment's value as a reading. -/
def FragmentValue.reading (value : FragmentValue) : Reading String :=
  ⟨value.css, value.key⟩

/-- A theme scale records a key only once it has a value for it. -/
theorem scaleValue_settles (scale : ThemeScale) (key : String) :
    (scaleValue theme scale key).Settles
      ((scaleValue? theme scale key).map FragmentValue.reading) := by
  unfold scaleValue scaleValue?
  cases scale.lookup? theme key with
  | none => exact fun _ => rfl
  | some value =>
    by_cases h : literalKeys.contains key
    · simp only [h, if_true, Option.map_some]
      exact Recorder.settles_pure value
    · simp only [h, Bool.false_eq_true, if_false, Option.map_some]
      exact Recorder.settles_record_bind _ _

/-- The chain of readings of a fragment settles: only its theme scale records, and then the chain
ends there. -/
theorem resolveFragment_settles (mode : UnitMode) (scale : Option ThemeScale) (raw : String) :
    (resolveFragment theme mode scale raw).Settles
      ((resolveFragment? theme mode scale raw).map FragmentValue.reading) := by
  unfold resolveFragment resolveFragment?
  cases readBracket? raw with
  | some bracket =>
    rw [Option.map_map]
    exact Recorder.settles_ofOption _
  | none =>
    cases spelledValue? raw with
    | some css => exact Recorder.settles_pure css
    | none =>
      cases scale with
      | none =>
        rw [Option.bind_none, Option.none_or, Option.map_map]
        exact Recorder.settles_ofOption _
      | some scale =>
        rw [Option.bind_some, Option.map_or, Option.map_map]
        exact (scaleValue_settles scale raw).orElse_ofOption _

/-- What a run makes of a fragment is the value of the fragment. -/
theorem exists_value_of_runFrom {mode : UnitMode} {scale : Option ThemeScale} {raw css : String}
    {before : Usage}
    (h : ((resolveFragment theme mode scale raw).runFrom before).1 = some css) :
    ∃ value, resolveFragment? theme mode scale raw = some value ∧ value.css = css := by
  rw [resolveFragment_settles mode scale raw before, settle_fst, Option.map_map] at h
  exact Option.map_eq_some_iff.1 h

/-! ## Colours -/

/-- Declaring a colour always succeeds, and records the key of a theme colour. -/
theorem Color.declare_settles (color : Color) (base suffix : String) :
    (color.declare base suffix).Settles (some ⟨color.styling base suffix, color.key?⟩) := by
  unfold Color.declare
  cases color.key? with
  | none => exact Recorder.settles_pure _
  | some key => exact Recorder.settles_record_bind key _

/-- The stylings of a colour on several edges, merged in order. -/
def Color.stylings? (color : Color) (base : String) : List String → Option Styling
  | [] => none
  | suffix :: rest =>
    some (rest.foldl (fun styling suffix => styling.merge (color.styling base suffix))
      (color.styling base suffix))

/-- Declaring a colour on further edges adds no key, when its own is there already. -/
theorem Color.runFrom_foldlM_declare (color : Color) (base : String) {suffixes : List String}
    {usage : Usage} (h : ∀ key ∈ color.key?, key ∈ usage.keys) (styling : Styling) :
    (suffixes.foldlM (fun styling suffix => return styling.merge (← color.declare base suffix))
        styling : Recorder Styling).runFrom usage =
      (some (suffixes.foldl (fun styling suffix => styling.merge (color.styling base suffix))
        styling), usage) := by
  induction suffixes generalizing styling with
  | nil => rfl
  | cons suffix rest ih =>
    have hkey : usage.recordAll color.key?.toList = usage := by
      cases hk : color.key? with
      | none => rfl
      | some key => exact Usage.record_of_mem (h key hk)
    -- the usage is the same after this edge, so the induction goes on from it
    have hstep := (color.declare_settles base suffix).bind_pure (fun s => styling.merge s) usage
    rw [Option.map_some, settle_some] at hstep
    rw [List.foldlM_cons, Recorder.runFrom_bind, hstep]
    simp only [Reading.map, hkey]
    exact ih _

/-- Declaring a colour on several edges records its key once for each, which is the key once. -/
theorem Color.declareAll_settles (color : Color) (base : String) (suffixes : List String) :
    (color.declareAll base suffixes).Settles
      ((color.stylings? base suffixes).map (⟨·, color.key?⟩)) := by
  cases suffixes with
  | nil => exact fun _ => rfl
  | cons suffix rest =>
    intro usage
    rw [Color.declareAll, Recorder.runFrom_bind, color.declare_settles base suffix usage]
    refine color.runFrom_foldlM_declare base (fun key hkey => ?_) _
    rw [Usage.mem_recordAll]
    exact .inl (Option.mem_toList.2 hkey)

/-! ## Utilities -/

/-- The width of the edges of a side. -/
def widthOutcome? (theme : Theme) (side raw : String) : Option (Reading Styling) :=
  (edgesOf? side).bind fun edges =>
    ((resolveFragment? theme .px none raw).map FragmentValue.reading).map
      (Reading.map (.fanOut (edges.map Edge.suffix) widthProperty))

theorem widthStyling_settles (side raw : String) :
    (widthStyling theme side raw).Settles (widthOutcome? theme side raw) :=
  .ofOption_bind fun _ => (resolveFragment_settles .px none raw).bind_pure _

/-- The colour of the edges of a side, or their width if the body is a math function. -/
def colorOutcome? (theme : Theme) (side body : String) : Option (Reading Styling) :=
  (edgesOf? side).bind fun edges =>
    if isMathBody body then widthOutcome? theme side body
    else
      (readColor? theme body).bind fun color =>
        (color.stylings? "border" (edges.map Edge.suffix)).map (⟨·, color.key?⟩)

theorem colorStyling_settles (side body : String) :
    (colorStyling theme side body).Settles (colorOutcome? theme side body) := by
  refine .ofOption_bind fun edges => ?_
  split
  · exact widthStyling_settles side body
  · exact .ofOption_bind fun color => color.declareAll_settles "border" _

/-- The opacity of the edges of a side. -/
def opacityOutcome? (theme : Theme) (side body : String) : Option (Reading Styling) :=
  (edgesOf? side).bind fun edges =>
    ((resolveFragment? theme .percent none body).map FragmentValue.reading).map
      (Reading.map (.fanOut (edges.map Edge.suffix) (opacityVariable "border")))

theorem opacityStyling_settles (side body : String) :
    (opacityStyling theme side body).Settles (opacityOutcome? theme side body) :=
  .ofOption_bind fun _ => (resolveFragment_settles .percent none body).bind_pure _

/-- The value of a radius: fully round, or a fragment that may name a radius of the theme. -/
def radiusValue? (theme : Theme) (scale : String) : Option (Reading String) :=
  if scale = "full" then some ⟨infiniteRadius, none⟩
  else (resolveFragment? theme .rem (some .radius) scale).map FragmentValue.reading

theorem radiusValue_settles (scale : String) :
    (radiusValue theme scale).Settles (radiusValue? theme scale) := by
  unfold radiusValue radiusValue?
  split
  · exact Recorder.settles_pure _
  · exact resolveFragment_settles .rem (some .radius) scale

/-- The radius of the corners of a corner part. -/
def radiusOutcome? (theme : Theme) (corner scale : String) : Option (Reading Styling) :=
  (cornersOf? corner).bind fun corners =>
    (radiusValue? theme scale).map
      (Reading.map (.fanOut (corners.map Corner.suffix) radiusProperty))

theorem radiusStyling_settles (corner scale : String) :
    (radiusStyling theme corner scale).Settles (radiusOutcome? theme corner scale) :=
  .ofOption_bind fun _ => (radiusValue_settles scale).bind_pure _

/-- What a utility makes of captures, and the theme key that it refers to. -/
def Utility.outcome? (utility : Utility) (theme : Theme) (captures : Captures) :
    Option (Reading Styling) :=
  let side := captures.getD 1 ""
  match utility with
  | .width => widthOutcome? theme side (captures.getD 2 "1")
  | .color => (captures.get? 2).bind (colorOutcome? theme side)
  | .opacity => (captures.get? 2).bind (opacityOutcome? theme side)
  | .radius => radiusOutcome? theme side (captures.getD 2 defaultKey)
  | .lineStyle => ((captures.get? 2).bind (lineStyling? side)).map ({ value := · })

/-- No utility reads the usage, and none records before it declines. -/
theorem Utility.run_settles (utility : Utility) (captures : Captures) :
    (utility.run theme captures).Settles (utility.outcome? theme captures) := by
  cases utility with
  | width => exact widthStyling_settles _ _
  | color => exact .ofOption_bind (colorStyling_settles _)
  | opacity => exact .ofOption_bind (opacityStyling_settles _)
  | radius => exact radiusStyling_settles _ _
  | lineStyle => exact Recorder.settles_ofOption _

/-! ## Rules -/

/-- What a rule makes of a token, and the theme key that it refers to. -/
def Rule.outcome? (rule : Rule) (theme : Theme) (token : String) : Option (Reading Styling) :=
  (rule.pattern.captures? token).bind (rule.utility.outcome? theme)

/-- A rule leaves the usage alone when its pattern does not fit or its utility declines. -/
theorem Rule.attempt_eq (rule : Rule) (token : String) (usage : Usage) :
    rule.attempt theme token usage = settle usage (rule.outcome? theme token) :=
  Recorder.Settles.ofOption_bind (rule.utility.run_settles ·) usage

/-- A token is settled by the first rule that has an outcome for it. -/
theorem resolveToken_eq (rules : List Rule) (token : String) (usage : Usage) :
    resolveToken rules theme token usage =
      settle usage (rules.findSome? (·.outcome? theme token)) := by
  induction rules with
  | nil => rfl
  | cons rule rest ih =>
    rw [resolveToken, rule.attempt_eq, List.findSome?_cons]
    cases rule.outcome? theme token with
    | none => exact ih
    | some outcome => rfl

/-! ## Tokens -/

/-- The styling that a list of rules gives a token, resolved with nothing recorded. -/
def tokenStyling? (rules : List Rule) (theme : Theme) (token : String) : Option Styling :=
  (resolveToken rules theme token .empty).1

/-- The theme keys that a list of rules refers to for a token, resolved with nothing recorded. -/
def tokenKeys (rules : List Rule) (theme : Theme) (token : String) : List ThemeKey :=
  (resolveToken rules theme token .empty).2.keys

variable {rules : List Rule} {token : String} {usage : Usage}

/-- The styling of a token does not depend on the usage. -/
theorem resolveToken_fst : (resolveToken rules theme token usage).1 =
    tokenStyling? rules theme token := by
  rw [tokenStyling?, resolveToken_eq, resolveToken_eq, settle_fst, settle_fst]

/-- A token adds its keys to any usage. -/
theorem mem_resolveToken {key : ThemeKey} : key ∈ (resolveToken rules theme token usage).2.keys ↔
    key ∈ usage.keys ∨ key ∈ tokenKeys rules theme token := by
  rw [resolveToken_eq, settle_snd, Usage.mem_absorb, tokenKeys, resolveToken_eq]

/-- The keys of a token are that of the rule that settles it. -/
theorem mem_tokenKeys {key : ThemeKey} : key ∈ tokenKeys rules theme token ↔
    ∃ outcome, rules.findSome? (·.outcome? theme token) = some outcome ∧
      outcome.key = some key := by
  rw [tokenKeys, resolveToken_eq]
  cases rules.findSome? (·.outcome? theme token) with
  | none => simp
  | some outcome => simp

end BorderCss
