import ClientBindings.Proofs.Resolution.Naming

/-!
# Repeated resolutions

What a resolution has registered, it finds again, and it registers nothing else.

* `Registry.install_self_iff`, `Registry.perform_self_iff`: a registration changes nothing exactly
  if the definition is what its name stands for, and a run exactly if that holds of its steps.
* `resolve_ok_iff`: a resolution succeeds exactly if its steps do, whatever the registry.
* `resolve_stable`: so a resolution that succeeded gives the same entry on every extension of the
  registry that it left, and leaves the extension as it is.
-/

namespace ClientBindings

namespace Registry

variable {r r' : Registry}

/-- A registration changes nothing exactly if the definition is what its name stands for. -/
theorem install_self_iff {d : Definition} : r.install d = .ok r ↔ r.Holds d := by
  constructor
  · intro h
    exact (install_ok h).1
  · intro h
    unfold Holds at h
    simp [install, h]

/-- A run succeeds and changes nothing exactly if the registry fulfills its steps. -/
theorem perform_self_iff {steps : List Step} :
    r.perform steps = (.ok (), r) ↔ ∀ step ∈ steps, r.Fulfills step := by
  refine ⟨perform_fulfills, fun h => ?_⟩
  induction steps with
  | nil => rfl
  | cons step steps ih =>
    obtain ⟨hstep, hsteps⟩ := List.forall_mem_cons.mp h
    cases step with
    | fail => exact hstep.elim
    | define d =>
      simp only [perform, install_self_iff.mpr hstep]
      exact ih hsteps

/-- What a registry fulfills, its extensions fulfill. -/
theorem Fulfills.mono {step : Step} (h : r.Fulfills step) (hle : r ≤ r') : r'.Fulfills step := by
  cases step with
  | define d => exact Holds.mono h hle
  | fail => exact h

end Registry

variable {validator : Validator} {model field : String} {entry : FieldEntry} {r r' : Registry}

/-- A resolution succeeds exactly if its steps do. Its entry does not depend on the registry. -/
theorem resolve_ok_iff :
    (resolve validator model field).run.run r = (.ok entry, r') ↔
      r.perform (validator.reading.type.steps model field) = (.ok (), r') ∧
        entry = validator.reading.entry model field := by
  rw [resolve_eq, Resolution.run_bind, Resolution.perform_run]
  rcases r.perform (validator.reading.type.steps model field) with ⟨error | _, r₁⟩
  · constructor
    · rintro ⟨⟩
    · rintro ⟨⟨⟩, -⟩
  · constructor
    · rintro ⟨⟩
      exact ⟨rfl, rfl⟩
    · rintro ⟨⟨⟩, rfl⟩
      rfl

/-- **Stability.** A resolution that succeeds on a registry, reached by resolutions or not, gives
the same entry on every registry that extends the one it left, and leaves that registry as it is.
On the one it left, it can thus be repeated without effect. -/
theorem resolve_stable (h : (resolve validator model field).run.run r = (.ok entry, r'))
    {later : Registry} (hlater : r' ≤ later) :
    (resolve validator model field).run.run later = (.ok entry, later) := by
  obtain ⟨hsteps, hentry⟩ := resolve_ok_iff.mp h
  have hfulfills := Registry.perform_fulfills hsteps
  refine resolve_ok_iff.mpr ⟨Registry.perform_self_iff.mpr fun step hstep => ?_, hentry⟩
  exact (hfulfills step hstep).mono hlater

/-- A list of variants with tags and a nested record, on a registry that has the tags already. With
another enumeration and another record, the resolution still finds all that it registered. -/
theorem resolve_stable_of_variants :
    let level : Validator := .node "enum" ["low", "high"] none .enumeration
    let info : Validator := .node "object" [] (some [("levels",
      .node "array" [] none (.array level))]) .object
    let tag : Validator := .node "literal" ["text"] none .unsupported
    let variant : Validator := .node "object" [] (some [("type", tag), ("meta", info)]) .object
    let parts : Validator :=
      .node "array" [] none (.array (.node "union" [] none (.union [variant])))
    let tags : EnumDef := ⟨"ChatPartType", ["text"]⟩
    let known : Registry := { enums := [tags] }
    let metaLevel : EnumDef := ⟨"ChatpartmetaLevel", ["high", "low"]⟩
    let nested : RecordDef := ⟨"ChatPartMeta", .nested,
      [("levels", .required (.array (.enumRef "ChatpartmetaLevel") false))]⟩
    let part : RecordDef := ⟨"ChatPart", .union (some "ChatPartType"),
      [("type", .required (.enumRef "ChatPartType")),
        ("meta", .optional (.recordRef "ChatPartMeta"))]⟩
    let left : Registry := ⟨[tags, metaLevel], [nested, part]⟩
    let later : Registry :=
      ⟨[tags, metaLevel, ⟨"Kind", []⟩], [nested, part, ⟨"Blog", .nested, []⟩]⟩
    let entry : FieldEntry := .required (.array (.unionRef "ChatPart") false)
    (resolve parts "chat" "parts").run.run known = (.ok entry, left) ∧ left ≤ later ∧
      (resolve parts "chat" "parts").run.run later = (.ok entry, later) := by
  intro level info tag variant parts tags known metaLevel nested part left later entry
  have hrun : (resolve parts "chat" "parts").run.run known = (.ok entry, left) := by rfl
  have hle : left ≤ later := ⟨⟨[_], rfl⟩, ⟨[_], rfl⟩⟩
  exact ⟨hrun, hle, resolve_stable hrun hle⟩

end ClientBindings
