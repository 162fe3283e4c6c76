import PhraseSql.Log.Filter

namespace PhraseSql.Log

def preferred (best? : Option Directive) (d : Directive) : Option Directive :=
  if best?.any (d.exactness < Directive.exactness ·) then best? else some d

structure IsBest (met : List Directive) (best : Directive) : Prop where
  mem : best ∈ met
  most : ∀ d ∈ met, d.exactness ≤ best.exactness

def IsBest? (met : List Directive) : Option Directive → Prop
  | none => met = []
  | some best => IsBest met best

theorem isBest?_preferred {met : List Directive} {best? : Option Directive}
    (h : IsBest? met best?) (d : Directive) : IsBest? (met ++ [d]) (preferred best? d) := by
  have hm : d ∈ met ++ [d] := List.mem_append_right _ (List.mem_singleton_self d)
  have hs : ∀ d' ∈ [d], d'.exactness ≤ d.exactness := by
    intro d' hd
    exact Nat.le_of_eq (congrArg Directive.exactness (List.mem_singleton.mp hd))
  cases best? with
  | none =>
    rw [(h : met = [])] at hm ⊢
    exact ⟨hm, hs⟩
  | some best =>
    by_cases hl : d.exactness < best.exactness
    · have hp : preferred (some best) d = some best := by simp [preferred, hl]
      rw [hp]
      refine ⟨List.mem_append_left _ h.mem, ?_⟩
      intro d' hd
      rcases List.mem_append.mp hd with hd | hd
      · exact h.most d' hd
      · exact Nat.le_trans (hs d' hd) (Nat.le_of_lt hl)
    · have hp : preferred (some best) d = some d := by simp [preferred, hl]
      rw [hp]
      refine ⟨hm, ?_⟩
      intro d' hd
      rcases List.mem_append.mp hd with hd | hd
      · exact Nat.le_trans (h.most d' hd) (Nat.le_of_not_lt hl)
      · exact hs d' hd

theorem isBest?_foldl {met ds : List Directive} {best? : Option Directive}
    (h : IsBest? met best?) : IsBest? (met ++ ds) (ds.foldl preferred best?) := by
  induction ds generalizing met best? with
  | nil => rwa [List.append_nil]
  | cons d ds ih =>
    have hs := ih (isBest?_preferred h d)
    rwa [List.append_assoc] at hs

namespace Filter

theorem isBest?_governing? (f : Filter) (e : Event) :
    IsBest? (f.directives.filter (·.concerns e)) (f.governing? e) := by
  have hn : IsBest? [] none := rfl
  exact isBest?_foldl hn

def IsDecided (f : Filter) (e : Event) : Prop :=
  ∀ d ∈ f.directives, ∀ d' ∈ f.directives, d.concerns e = true → d'.concerns e = true →
    d.exactness = d'.exactness → d = d'

theorem admits_iff {f : Filter} {e : Event} (hd : f.IsDecided e) :
    f.admits e = true ↔ ∃ d ∈ f.directives, d.concerns e = true ∧
      (∀ d' ∈ f.directives, d'.concerns e = true → d'.exactness ≤ d.exactness) ∧
      d.threshold.admits e.level = true := by
  have hb := isBest?_governing? f e
  rw [admits]
  cases hg : f.governing? e with
  | none =>
    rw [hg] at hb
    have hn := List.filter_eq_nil_iff.mp hb
    constructor
    · intro h
      cases h
    · rintro ⟨d, hm, hc, -⟩
      exact absurd hc (hn d hm)
  | some best =>
    rw [hg] at hb
    obtain ⟨hm, hc⟩ := List.mem_filter.mp hb.mem
    rw [Option.any_some]
    constructor
    · intro h
      refine ⟨best, hm, hc, ?_, h⟩
      intro d hd hdc
      exact hb.most d (List.mem_filter.mpr ⟨hd, hdc⟩)
    · rintro ⟨d, hdm, hdc, hmost, h⟩
      have hle := hb.most d (List.mem_filter.mpr ⟨hdm, hdc⟩)
      rwa [hd best hm d hdm hc hdc (Nat.le_antisymm (hmost best hm hc) hle)]

end Filter

end PhraseSql.Log
