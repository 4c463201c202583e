import WorkflowAreas.Proofs.Violations

/-!
# Agreement as a preorder

A check compares two files. This module says how the verdicts on several files hang together.

* `Agree.trans`: what agrees with a file that agrees with a template agrees with the template. An area can
  be lost in either step, and then it is marked `ONCE` in the template, since headers that say the same
  are marked alike;
* `agree_self_iff`: a file agrees with itself if its areas are closed and have different keys, and
  `Agree.template` and `Agree.target` say that all files do that agree with any;
* `Agree.symm`: only lost areas make a difference between the two sides;
* `check_preorder`: **the same of passed checks**.
-/

namespace WorkflowAreas.Consistency

namespace SaysSame

variable {f g h : Header}

protected theorem refl (g : Header) : SaysSame g g :=
  ⟨rfl, rfl, rfl, rfl, rfl⟩

protected theorem symm (hgh : SaysSame g h) : SaysSame h g :=
  ⟨hgh.name.symm, hgh.sorted.symm, hgh.once.symm, hgh.flag.symm, hgh.sortedWorkflows.symm⟩

protected theorem trans (hfg : SaysSame f g) (hgh : SaysSame g h) : SaysSame f h :=
  ⟨hfg.name.trans hgh.name, hfg.sorted.trans hgh.sorted, hfg.once.trans hgh.once,
    hfg.flag.trans hgh.flag, hfg.sortedWorkflows.trans hgh.sortedWorkflows⟩

end SaysSame

variable {as bs cs : List Area}

theorem Agree.saysSame (h : Agree as bs) {a b : Area} (ha : a ∈ as) (hb : b ∈ bs)
    (hkey : a.key = b.key) : SaysSame a.header b.header :=
  difference?_eq_none_iff.1 (h.same a ha b hb hkey)

/-- **When a file agrees with itself.** -/
theorem agree_self_iff :
    Agree as as ↔ (∀ a ∈ as, a.isTerminated = true) ∧ (as.map Area.key).Nodup := by
  constructor
  · exact fun h ↦ ⟨h.closed_template, h.nodup_template⟩
  · rintro ⟨hclosed, hnodup⟩
    refine ⟨hclosed, hclosed, hnodup, hnodup, ?_, fun a ha ↦ ⟨a, ha, rfl⟩, ?_⟩
    · exact fun a ha hmissing ↦ absurd rfl (hmissing a ha)
    · intro a ha b hb hkey
      rw [List.inj_on_of_nodup_map hnodup ha hb hkey]
      exact difference?_eq_none_iff.2 (SaysSame.refl b.header)

namespace Agree

theorem template (h : Agree as bs) : Agree as as :=
  agree_self_iff.2 ⟨h.closed_template, h.nodup_template⟩

theorem target (h : Agree as bs) : Agree bs bs :=
  agree_self_iff.2 ⟨h.closed_target, h.nodup_target⟩

/-- **Agreement is transitive.** -/
protected theorem trans (h : Agree as bs) (h' : Agree bs cs) : Agree as cs where
  closed_template := h.closed_template
  closed_target := h'.closed_target
  nodup_template := h.nodup_template
  nodup_target := h'.nodup_target
  once_of_missing a ha hmissing := by
    by_cases hb : ∃ b ∈ bs, b.key = a.key
    · -- it was lost in the second step
      obtain ⟨b, hb, hkey⟩ := hb
      rw [h.once_eq ha hb hkey.symm]
      exact h'.once_of_missing b hb fun c hc hcb ↦ hmissing c hc (hcb.trans hkey)
    · exact h.once_of_missing a ha fun b hbs hkey ↦ hb ⟨b, hbs, hkey⟩
  exists_template c hc := by
    obtain ⟨b, hb, hbc⟩ := h'.exists_template c hc
    obtain ⟨a, ha, hab⟩ := h.exists_template b hb
    exact ⟨a, ha, hab.trans hbc⟩
  same a ha c hc hkey := by
    obtain ⟨b, hb, hbc⟩ := h'.exists_template c hc
    exact difference?_eq_none_iff.2
      ((h.saysSame ha hb (hkey.trans hbc.symm)).trans (h'.saysSame hb hc hbc))

/-- **Agreement holds the other way around if no area is lost.** -/
protected theorem symm (h : Agree as bs) (hkept : ∀ a ∈ as, ∃ b ∈ bs, b.key = a.key) :
    Agree bs as where
  closed_template := h.closed_target
  closed_target := h.closed_template
  nodup_template := h.nodup_target
  nodup_target := h.nodup_template
  once_of_missing b hb hmissing := by
    obtain ⟨a, ha, hkey⟩ := h.exists_template b hb
    exact absurd hkey (hmissing a ha)
  exists_template := hkept
  same b hb a ha hkey := difference?_eq_none_iff.2 (h.saysSame ha hb hkey.symm).symm

theorem exists_target (h : Agree as bs) {a : Area} (ha : a ∈ as) (honce : a.header.once = false) :
    ∃ b ∈ bs, b.key = a.key := by
  by_contra hnone
  have hlost := h.once_of_missing a ha fun b hb hkey ↦ hnone ⟨b, hb, hkey⟩
  rw [honce] at hlost
  cases hlost

end Agree

/-- **Passing a check is transitive, and reflexive where the file is well formed**, that is, where all its
areas are closed and have different keys. Files that take part in a passed check are well formed. Without
`ONCE` areas a check can be turned around. -/
theorem check_preorder :
    (∀ {ls ms ns : List String} {p q p' q' : String}, (check ls ms p q).passed = true →
      (check ms ns p' q').passed = true → ∀ p'' q'', (check ls ns p'' q'').passed = true) ∧
    (∀ (ls : List String) (p q : String), (check ls ls p q).passed = true ↔
      (∀ a ∈ Area.extract ls, a.isTerminated = true) ∧
        ((Area.extract ls).map Area.key).Nodup) ∧
    (∀ {ls ms : List String} {p q : String}, (check ls ms p q).passed = true →
      ∀ p' q', (check ls ls p' q').passed = true ∧ (check ms ms p' q').passed = true) ∧
    ∀ {ls ms : List String}, (∀ a ∈ Area.extract ls, a.header.once = false) →
      (∀ b ∈ Area.extract ms, b.header.once = false) →
      ∀ p q p' q', (check ls ms p q).passed = true ↔ (check ms ls p' q').passed = true := by
  simp only [passed_check_iff]
  refine ⟨fun h h' _ _ ↦ h.trans h', fun ls _ _ ↦ agree_self_iff,
    fun h _ _ ↦ ⟨h.template, h.target⟩, fun hls hms _ _ _ _ ↦ ⟨fun h ↦ ?_, fun h ↦ ?_⟩⟩
  · exact h.symm fun a ha ↦ h.exists_target ha (hls a ha)
  · exact h.symm fun b hb ↦ h.exists_target hb (hms b hb)

/-- A file that has lost a `ONCE` area, and one that spells an opening line in another way. -/
theorem check_preorder_sample :
    let template := ["# BEGIN ONCE WORKFLOW AREA a FOR w", "# END WORKFLOW AREA",
      "# BEGIN WORKFLOW AREA b FOR w", "# END WORKFLOW AREA"]
    let merged := ["x", "# BEGIN WORKFLOW AREA b FOR w", "# END WORKFLOW AREA"]
    let edited := ["# BEGIN WORKFLOW AREA b FOR w ", "y", "# END WORKFLOW AREA"]
    (check template merged "t" "m").passed = true ∧ (check merged edited "m" "e").passed = true ∧
      (check template edited "t" "e").passed = true ∧
      (check template template "t" "t").passed = true ∧
      (check merged merged "t" "t").passed = true ∧
      (∀ a ∈ Area.extract merged, a.header.once = false) ∧
      (∀ b ∈ Area.extract edited, b.header.once = false) ∧
      (check edited merged "e" "m").passed = true := by
  intro template merged edited
  obtain ⟨htrans, -, hself, hsymm⟩ := check_preorder
  have hfirst : (check template merged "t" "m").passed = true :=
    passed_check_iff.2 (by decide +kernel)
  have hsecond : (check merged edited "m" "e").passed = true :=
    passed_check_iff.2 (by decide +kernel)
  have hmerged : ∀ a ∈ Area.extract merged, a.header.once = false := by decide +kernel
  have hedited : ∀ b ∈ Area.extract edited, b.header.once = false := by decide +kernel
  exact ⟨hfirst, hsecond, htrans hfirst hsecond "t" "e", (hself hfirst "t" "t").1,
    (hself hfirst "t" "t").2, hmerged, hedited, (hsymm hmerged hedited "m" "e" "e" "m").1 hsecond⟩

end WorkflowAreas.Consistency
