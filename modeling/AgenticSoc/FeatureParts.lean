import AgenticSoc.FeatureStore

/-!
# The order of the part files

Part names are compared as texts. Indices of five digits are in numeric order as
texts; an index of six digits comes before some index of five.
-/
namespace FeatureStore

open JsonText TextLines Sorting BlackboardFirewall Calendar

/-! ## Texts in order -/

section Lex

variable {α : Type} [LinearOrder α]

/-- Lists of one length keep their order before anything. -/
theorem lt_append {a b : List α} (hlen : a.length = b.length) (h : a < b) (s t : List α) : a ++ s < b ++ t := by
  induction a generalizing b with
  | nil =>
    cases b with
    | nil => exact absurd h (lt_irrefl _)
    | cons y b => cases hlen
  | cons x a ih =>
    cases b with
    | nil => cases hlen
    | cons y b =>
      rw [List.cons_append, List.cons_append, List.cons_lt_cons_iff]
      rcases List.cons_lt_cons_iff.mp h with hxy | ⟨rfl, hab⟩
      · exact .inl hxy
      · exact .inr ⟨rfl, ih (by simpa using hlen) hab⟩

theorem append_lt (s : List α) {a b : List α} (h : a < b) : s ++ a < s ++ b := by
  induction s with
  | nil => exact h
  | cons x s ih => exact List.cons_lt_cons_iff.mpr (.inr ⟨rfl, ih⟩)

end Lex

theorem digitChar_lt : ∀ m < 10, ∀ n < 10, m < n → Nat.digitChar m < Nat.digitChar n := by decide

/-- Numbers of one width are in the order of their digits. -/
theorem pad_lt {w m n : Nat} (hn : n < 10 ^ w) (h : m < n) : pad w m < pad w n := by
  induction w generalizing m n with
  | zero => omega
  | succ w ih =>
    rw [pad, pad]
    rcases Nat.lt_or_ge (m / 10) (n / 10) with hlt | hge
    · have hwidth : n / 10 < 10 ^ w := by
        rw [Nat.pow_succ'] at hn
        omega
      exact lt_append (by rw [pad_length, pad_length]) (ih hwidth hlt) _ _
    · have heq : m / 10 = n / 10 := by omega
      rw [heq]
      apply append_lt
      exact List.cons_lt_cons_iff.mpr (.inl (digitChar_lt _ (by omega) _ (by omega) (by omega)))

theorem pad_zero (w : Nat) : pad w 0 = List.replicate w '0' := by
  induction w with
  | zero => rfl
  | succ w ih =>
    rw [pad, Nat.zero_div, ih, List.replicate_succ']
    rfl

/-- Filling up with zeros gives the number's last digits. -/
theorem replicate_toDigits {w n : Nat} (h : n < 10 ^ w) (hw : 0 < w) :
    List.replicate (w - (Nat.toDigits 10 n).length) '0' ++ Nat.toDigits 10 n = pad w n := by
  induction w generalizing n with
  | zero => omega
  | succ w ih =>
    rw [pad]
    by_cases hn : n < 10
    · rw [Nat.toDigits_of_lt_base hn, Nat.div_eq_of_lt hn, Nat.mod_eq_of_lt hn, pad_zero]
      rfl
    · have hrest : n / 10 < 10 ^ w := by
        rw [Nat.pow_succ'] at h
        omega
      have hpos : 0 < w := by
        rcases Nat.eq_zero_or_pos w with rfl | hpos
        · omega
        · exact hpos
      rw [Nat.toDigits_of_base_le (by decide) (by omega), ← ih hrest hpos, List.length_append, List.length_singleton,
        Nat.add_sub_add_right, List.append_assoc]

theorem fiveDigits_pad {n : Nat} (h : n < 100000) : fiveDigits n = pad 5 n := replicate_toDigits h (by decide)

theorem ofDigitChars_zeros (k : Nat) (ds : List Char) :
    Nat.ofDigitChars 10 (List.replicate k '0' ++ ds) 0 = Nat.ofDigitChars 10 ds 0 := by
  induction k with
  | zero => rfl
  | succ k ih =>
    rw [List.replicate_succ, List.cons_append, Nat.ofDigitChars_cons]
    exact ih

theorem ofDigitChars_fiveDigits (n : Nat) : Nat.ofDigitChars 10 (fiveDigits n) 0 = n := by
  unfold fiveDigits
  simp only [ofDigitChars_zeros, Nat.ofDigitChars_ten_toDigits]

/-! ## Part names -/

theorem partName_toList (index : Nat) :
    (partName index).toList = "part-".toList ++ fiveDigits index ++ ".jsonl".toList := String.toList_ofList

theorem partName_injective : Function.Injective partName := by
  intro m n h
  have hlist := congrArg String.toList h
  rw [partName_toList, partName_toList, List.append_left_inj, List.append_right_inj] at hlist
  rw [← ofDigitChars_fiveDigits m, hlist, ofDigitChars_fiveDigits]

/-- Below a hundred thousand the names are in the order of the indices. -/
theorem partName_lt {m n : Nat} (hn : n < 100000) (h : m < n) : partName m < partName n := by
  rw [String.lt_iff_toList_lt, partName_toList, partName_toList, fiveDigits_pad hn,
    fiveDigits_pad (Nat.lt_trans h hn), List.append_assoc, List.append_assoc]
  exact append_lt _ (lt_append (by rw [pad_length, pad_length]) (pad_lt (w := 5) hn h) _ _)

/-- The first name of six digits comes before a name of five. -/
theorem partName_out_of_order : partName 100000 < partName 10001 := by
  rw [String.lt_iff_toList_lt, partName_toList, partName_toList]
  decide

theorem partName_part (index : Nat) : "part-".toList.isPrefixOf (partName index).toList = true := by
  rw [List.isPrefixOf_iff_prefix, partName_toList, List.append_assoc]
  exact List.prefix_append _ _

theorem partName_ne_marker (index : Nat) : partName index ≠ "_FINALIZING" := by
  intro h
  have hpart := partName_part index
  rw [h] at hpart
  exact absurd hpart (by decide)

end FeatureStore
