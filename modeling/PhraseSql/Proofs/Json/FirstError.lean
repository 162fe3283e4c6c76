import PhraseSql.Proofs.Json.Outcome

namespace PhraseSql.Json

section

variable {fields : List Field} {seen before after before' after' ms ms' : List Member}
  {m m' : Member} {cause cause' : Cause} {o o' : Except Cause (Row fields)}

theorem Member.Spoils.unique (hd : (fields.map Field.name).Nodup) (h : m.Spoils fields seen cause)
    (h' : m.Spoils fields seen cause') : cause = cause' := by
  have he {f g : Field} (hf : f ∈ fields) (hg : g ∈ fields) (hn : f.name = m.name)
      (hn' : g.name = m.name) : f = g := eq_of_name_eq hd hf hg (hn.trans hn'.symm)
  cases h with
  | duplicate hf hn hs =>
    obtain ⟨n, hns, hne⟩ := hs
    cases h' with
    | duplicate hg hn' hs' => rw [he hf hg hn hn']
    | mismatch hg hn' hs' hv hk => exact absurd (hne.trans (hn.trans hn'.symm)) (hs' n hns)
    | outOfRange hg hn' hs' hv => exact absurd (hne.trans (hn.trans hn'.symm)) (hs' n hns)
  | mismatch hf hn hs hv hk =>
    cases h' with
    | duplicate hg hn' hs' =>
      obtain ⟨n, hns, hne⟩ := hs'
      exact absurd (hne.trans (hn'.trans hn.symm)) (hs n hns)
    | mismatch hg hn' hs' hv' hk' => rw [he hf hg hn hn', shows_unique hv hv']
    | outOfRange hg hn' hs' hv' => exact absurd hv' (not_outOfRange_of_shows hv)
  | outOfRange hf hn hs hv =>
    cases h' with
    | duplicate hg hn' hs' =>
      obtain ⟨n, hns, hne⟩ := hs'
      exact absurd (hne.trans (hn'.trans hn.symm)) (hs n hns)
    | mismatch hg hn' hs' hv' hk' => exact absurd hv (not_outOfRange_of_shows hv')
    | outOfRange hg hn' hs' hv' => rfl

theorem eq_of_first {α : Type} {before after before' after' : List α} {x x' : α}
    {P : List α → α → Prop} (h : before ++ x :: after = before' ++ x' :: after')
    (hx : P before x) (hx' : P before' x')
    (hb : ∀ front y back, before = front ++ y :: back → ¬ P front y)
    (hb' : ∀ front y back, before' = front ++ y :: back → ¬ P front y) :
    before = before' ∧ x = x' := by
  -- were one of them later, the other would be among those before it
  rcases List.append_eq_append_iff.mp h with ⟨z, hz, hz'⟩ | ⟨z, hz, hz'⟩
  · cases z with
    | nil =>
      rw [List.append_nil] at hz
      exact ⟨hz.symm, (List.cons.inj hz').1⟩
    | cons y z =>
      obtain ⟨rfl, -⟩ := List.cons.inj hz'
      exact absurd hx (hb' before x z hz)
  · cases z with
    | nil =>
      rw [List.append_nil] at hz
      exact ⟨hz, (List.cons.inj hz').1.symm⟩
    | cons y z =>
      obtain ⟨rfl, -⟩ := List.cons.inj hz'
      exact absurd hx' (hb before' x' z hz)

theorem occurs_unique {row row' : Row fields} (h : Row.Occurs ms fields row)
    (h' : Row.Occurs ms fields row') : row = row' := by
  induction fields with
  | nil => rfl
  | cons f fs ih =>
    obtain ⟨x, row⟩ := row
    obtain ⟨y, row'⟩ := row'
    obtain ⟨⟨token, ht, hx⟩, h⟩ := h
    obtain ⟨⟨token', ht', hy⟩, h'⟩ := h'
    rw [ht] at ht'
    cases ht'
    rw [denotes_unique hx hy, ih h h']

theorem occurs_exists {row : Row fields} (h : Row.Occurs ms fields row) {f : Field}
    (hf : f ∈ fields) : ∃ m ∈ ms, m.name = f.name := by
  induction fields with
  | nil => cases hf
  | cons g fs ih =>
    obtain ⟨x, row⟩ := row
    obtain ⟨⟨token, ht, -⟩, h⟩ := h
    rcases List.mem_cons.mp hf with rfl | hf
    · have hm : (⟨f.name, token⟩ : Member) ∈ ms.filter (Member.hasName f.name) := by
        rw [ht]
        exact List.mem_singleton_self _
      exact ⟨_, (List.mem_filter.mp hm).1, rfl⟩
    · exact ih h hf

theorem Outcome.unique (hd : (fields.map Field.name).Nodup) (h : Outcome fields ms o)
    (h' : Outcome fields ms o') : o = o' := by
  have not_missing {front back : List Field} {f : Field} {row : Row fields}
      (he : fields = front ++ f :: back) (hm : ∀ m ∈ ms, m.name ≠ f.name) :
      ¬ Row.Occurs ms fields row := by
    intro ho
    have hf : f ∈ fields := by simp [he]
    obtain ⟨m, hms, hn⟩ := occurs_exists ho hf
    exact hm m hms hn
  cases h with
  | spoiled he hb hs =>
    cases h' with
    | spoiled he' hb' hs' =>
      have unspoiled {before : List Member} (hb : Unspoiled fields before) :
          ∀ front n back, before = front ++ n :: back → ¬ ∃ cause, n.Spoils fields front cause := by
        rintro front n back h ⟨cause, hn⟩
        exact hb front n back cause h hn
      obtain ⟨rfl, rfl⟩ := eq_of_first (P := fun front m => ∃ cause, m.Spoils fields front cause)
        (he.symm.trans he') ⟨_, hs⟩ ⟨_, hs'⟩ (unspoiled hb) (unspoiled hb')
      rw [hs.unique hd hs']
    | missing hu' => exact absurd hs (hu' _ _ _ _ he)
    | complete hu' => exact absurd hs (hu' _ _ _ _ he)
  | missing hu he hf hm =>
    cases h' with
    | spoiled he' hb' hs' => exact absurd hs' (hu _ _ _ _ he')
    | missing hu' he' hf' hm' =>
      have seen {front : List Field} (hf : ∀ g ∈ front, ∃ m ∈ ms, m.name = g.name) :
          ∀ before g after, front = before ++ g :: after → ¬ ∀ m ∈ ms, m.name ≠ g.name := by
        intro before g after h hg
        have hgf : g ∈ front := by simp [h]
        obtain ⟨m, hms, hn⟩ := hf g hgf
        exact hg m hms hn
      obtain ⟨-, rfl⟩ := eq_of_first (P := fun _ f => ∀ m ∈ ms, m.name ≠ f.name)
        (he.symm.trans he') hm hm' (seen hf) (seen hf')
      rfl
    | complete hu' ho => exact absurd ho (not_missing he hm)
  | complete hu ho =>
    cases h' with
    | spoiled he' hb' hs' => exact absurd hs' (hu _ _ _ _ he')
    | missing hu' he' hf' hm' => exact absurd ho (not_missing he' hm')
    | complete hu' ho' => rw [occurs_unique ho ho']

theorem exists_filter_iff {f : Field} (hf : f ∈ fields) :
    (∃ n ∈ seen.filter (IsKnown fields), n.name = f.name) ↔ ∃ n ∈ seen, n.name = f.name := by
  constructor
  · rintro ⟨n, hn, he⟩
    exact ⟨n, (List.mem_filter.mp hn).1, he⟩
  · rintro ⟨n, hn, he⟩
    exact ⟨n, List.mem_filter.mpr ⟨hn, decide_eq_true ⟨f, hf, he.symm⟩⟩, he⟩

theorem forall_filter_iff {f : Field} (hf : f ∈ fields) :
    (∀ n ∈ seen.filter (IsKnown fields), n.name ≠ f.name) ↔ ∀ n ∈ seen, n.name ≠ f.name := by
  have h : (¬ ∃ n ∈ seen.filter (IsKnown fields), n.name = f.name) ↔
      ¬ ∃ n ∈ seen, n.name = f.name := not_congr (exists_filter_iff hf)
  simpa only [not_exists, not_and] using h

theorem Member.Spoils.isKnown (h : m.Spoils fields seen cause) : IsKnown fields m := by
  cases h with
  | duplicate hf hn => exact ⟨_, hf, hn⟩
  | mismatch hf hn => exact ⟨_, hf, hn⟩
  | outOfRange hf hn => exact ⟨_, hf, hn⟩

theorem spoils_filter_iff :
    m.Spoils fields (seen.filter (IsKnown fields)) cause ↔ m.Spoils fields seen cause := by
  constructor
  · intro h
    cases h with
    | duplicate hf hn hs => exact .duplicate hf hn ((exists_filter_iff hf).mp hs)
    | mismatch hf hn hs hv hk => exact .mismatch hf hn ((forall_filter_iff hf).mp hs) hv hk
    | outOfRange hf hn hs hv => exact .outOfRange hf hn ((forall_filter_iff hf).mp hs) hv
  · intro h
    cases h with
    | duplicate hf hn hs => exact .duplicate hf hn ((exists_filter_iff hf).mpr hs)
    | mismatch hf hn hs hv hk => exact .mismatch hf hn ((forall_filter_iff hf).mpr hs) hv hk
    | outOfRange hf hn hs hv => exact .outOfRange hf hn ((forall_filter_iff hf).mpr hs) hv

theorem filter_split (hm : IsKnown fields m) (h : ms = before ++ m :: after) :
    ms.filter (IsKnown fields) =
      before.filter (IsKnown fields) ++ m :: after.filter (IsKnown fields) := by
  rw [h, List.filter_append, List.filter_cons_of_pos (by simpa using hm)]

theorem exists_of_filter_split (h : ms.filter (IsKnown fields) = before ++ m :: after) :
    ∃ front back, ms = front ++ m :: back ∧ front.filter (IsKnown fields) = before := by
  obtain ⟨front, more, rfl, rfl, hm⟩ := List.filter_eq_append_iff.mp h
  obtain ⟨skipped, back, rfl, hs, -, -⟩ := List.filter_eq_cons_iff.mp hm
  refine ⟨front ++ skipped, back, by simp, ?_⟩
  have hn : skipped.filter (IsKnown fields) = [] := List.filter_eq_nil_iff.mpr hs
  rw [List.filter_append, hn, List.append_nil]

theorem unspoiled_filter_iff :
    Unspoiled fields (ms.filter (IsKnown fields)) ↔ Unspoiled fields ms := by
  constructor
  · intro hu before m after cause h hs
    exact hu _ m _ cause (filter_split hs.isKnown h) (spoils_filter_iff.mpr hs)
  · intro hu before m after cause h hs
    obtain ⟨front, back, hm, rfl⟩ := exists_of_filter_split h
    exact hu front m back cause hm (spoils_filter_iff.mp hs)

theorem occurs_congr {row : Row fields}
    (h : ∀ f ∈ fields, ms.filter (Member.hasName f.name) = ms'.filter (Member.hasName f.name)) :
    Row.Occurs ms fields row ↔ Row.Occurs ms' fields row := by
  induction fields with
  | nil => exact Iff.rfl
  | cons f fs ih =>
    obtain ⟨hf, hfs⟩ := List.forall_mem_cons.mp h
    simp only [Row.Occurs, hf, ih hfs]

theorem outcome_filter_iff : Outcome fields (ms.filter (IsKnown fields)) o ↔ Outcome fields ms o := by
  have ho {row : Row fields} :
      Row.Occurs (ms.filter (IsKnown fields)) fields row ↔ Row.Occurs ms fields row := by
    apply occurs_congr
    intro f hf
    rw [List.filter_filter]
    apply List.filter_congr
    intro m _
    by_cases hn : m.name = f.name
    · have hk : IsKnown fields m := ⟨f, hf, hn.symm⟩
      simp [hk]
    · simp [Member.hasName, hn]
  constructor
  · intro h
    cases h with
    | spoiled he hb hs =>
      obtain ⟨front, back, hm, rfl⟩ := exists_of_filter_split he
      exact .spoiled hm (unspoiled_filter_iff.mp hb) (spoils_filter_iff.mp hs)
    | @missing front back f hu he hf hm =>
      refine .missing (unspoiled_filter_iff.mp hu) he ?_ ((forall_filter_iff (by simp [he])).mp hm)
      intro g hg
      exact (exists_filter_iff (by simp [he, hg])).mp (hf g hg)
    | complete hu h => exact .complete (unspoiled_filter_iff.mp hu) (ho.mp h)
  · intro h
    cases h with
    | spoiled he hb hs =>
      exact .spoiled (filter_split hs.isKnown he) (unspoiled_filter_iff.mpr hb)
        (spoils_filter_iff.mpr hs)
    | @missing front back f hu he hf hm =>
      refine .missing (unspoiled_filter_iff.mpr hu) he ?_ ((forall_filter_iff (by simp [he])).mpr hm)
      intro g hg
      exact (exists_filter_iff (by simp [he, hg])).mpr (hf g hg)
    | complete hu h => exact .complete (unspoiled_filter_iff.mpr hu) (ho.mpr h)

theorem occurs_of_perm {row : Row fields} (hp : ms.Perm ms') (h : Row.Occurs ms fields row) :
    Row.Occurs ms' fields row := by
  induction fields with
  | nil => exact trivial
  | cons f fs ih =>
    obtain ⟨x, row⟩ := row
    obtain ⟨⟨token, ht, hx⟩, h⟩ := h
    have hf := hp.filter (Member.hasName f.name)
    rw [ht] at hf
    exact ⟨⟨token, List.perm_singleton.mp hf.symm, hx⟩, ih h⟩

end

def ObjectText (document : List UInt8) (ms : List Member) : Prop :=
  ∃ before text after, Blanks before ∧ MembersText true text ms ∧ Blanks after ∧
    document = before ++ (openBrace :: text ++ after)

section

variable {shape : Shape} {document document' : List UInt8} {ms ms' : List Member}
  {o : Except Cause (Row shape.fields)}

theorem outcome_decode (hd : (shape.fields.map Field.name).Nodup) (h : ObjectText document ms)
    (hw : WellFormed shape.fields ms) :
    Outcome shape.fields ms ((shape.decode document).mapError Failure.cause) := by
  obtain ⟨before, text, after, hb, ht, ha, rfl⟩ := h
  have hs := skipBlanks_append_cons hb (b := openBrace) rfl (text ++ after)
  have ho : Bracket.opening? openBrace = some .object := rfl
  have he : skipBlanks after = [] := by
    rw [← List.append_nil after, skipBlanks_append ha, skipBlanks, List.dropWhile_nil]
  have hr := outcome_of_readMembers hd ht (markedBy_empty shape.fields) unspoiled_nil hw after
  simp only [Shape.decode, Shape.read, List.cons_append, hs, ho, bind, Except.bind]
  rcases hr with ⟨cause, left, hr, h⟩ | ⟨row, hr, hu, hc⟩
  · rw [hr]
    exact h
  · rw [hr]
    dsimp only
    rw [he]
    exact .complete hu (completes_empty_iff.mp hc)

theorem decode_outcome_iff (hd : (shape.fields.map Field.name).Nodup)
    (h : ObjectText document ms) (hw : WellFormed shape.fields ms) :
    (shape.decode document).mapError Failure.cause = o ↔ Outcome shape.fields ms o := by
  have ho := outcome_decode hd h hw
  constructor
  · rintro rfl
    exact ho
  · exact ho.unique hd

theorem WellFormed.perm {fields : List Field} (h : WellFormed fields ms) (hp : ms.Perm ms') :
    WellFormed fields ms' where
  known m hm := h.known m (hp.mem_iff.mpr hm)
  others m hm := h.others m (hp.mem_iff.mpr hm)

end

end PhraseSql.Json
