import PhraseSql.Number.Layout
import PhraseSql.Proofs.Text.Quoted

namespace PhraseSql.Number

open Text (HasNoControls hasNoControls_append_iff hasNoControls_toDigits)

theorem hasNoControls_shortest (tie : Tie) (units : Nat) :
    HasNoControls (Decimal.shortest tie units).digits := by
  unfold Decimal.shortest
  split
  · decide
  · dsimp only
    intro c hc
    have hc := (List.dropWhile_sublist _).mem (List.mem_reverse.mp hc)
    exact hasNoControls_toDigits 10 (by decide) (by decide) _ c (List.mem_reverse.mp hc)

variable {layout : Layout} {digits : List Char}

theorem hasNoControls_positional (hd : HasNoControls digits) (exponent : Int) :
    HasNoControls (positional digits exponent) := by
  have hz (n : Nat) : HasNoControls (List.replicate n '0') := by
    intro c hc
    rw [List.eq_of_mem_replicate hc]
    decide
  cases exponent with
  | ofNat n =>
    have hw : HasNoControls (digits.take (n + 1)) := fun c hc => hd c (List.mem_of_mem_take hc)
    have hr : HasNoControls
        ('.' :: if digits.drop (n + 1) = [] then ['0'] else digits.drop (n + 1)) := by
      refine List.forall_mem_cons.mpr ⟨by decide, ?_⟩
      split
      · show HasNoControls ['0']
        decide
      · exact fun c hc => hd c (List.mem_of_mem_drop hc)
    exact hasNoControls_append_iff.mpr ⟨hasNoControls_append_iff.mpr ⟨hw, hz _⟩, hr⟩
  | negSucc n =>
    have hf : HasNoControls ['0', '.'] := by decide
    exact hasNoControls_append_iff.mpr ⟨hf, hasNoControls_append_iff.mpr ⟨hz n, hd⟩⟩

theorem hasNoControls_scientific (hs : HasNoControls layout.positiveSign)
    (hd : HasNoControls digits) (exponent : Int) :
    HasNoControls (scientific layout digits exponent) := by
  unfold scientific
  refine hasNoControls_append_iff.mpr ⟨?_, List.forall_mem_cons.mpr ⟨by decide, ?_⟩⟩
  · split
    · obtain ⟨hf, hr⟩ := List.forall_mem_cons.mp hd
      exact List.forall_mem_cons.mpr ⟨hf, List.forall_mem_cons.mpr ⟨by decide, hr⟩⟩
    · exact hd
  · refine hasNoControls_append_iff.mpr ⟨?_, hasNoControls_toDigits 10 (by decide) (by decide) _⟩
    split
    · decide
    · exact hs

theorem hasNoControls_write (hs : HasNoControls layout.positiveSign) (x : Binary64) :
    HasNoControls (layout.write x).toList := by
  have hd : HasNoControls (layout.decimal (.shortest layout.tie x.units)) := by
    have hd := hasNoControls_shortest layout.tie x.units
    unfold Layout.decimal
    split
    · exact hasNoControls_positional hd _
    · exact hasNoControls_scientific hs hd _
  rw [Layout.write, String.toList_ofList]
  split
  · exact List.forall_mem_cons.mpr ⟨by decide, hd⟩
  · exact hd

end PhraseSql.Number
