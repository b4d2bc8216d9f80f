import AgenticSoc.PythonJson
import Mathlib.Data.String.Basic

/-!
# Sizes of canonical texts

A bound on the bytes of a text from bounds on its parts.
-/
namespace JsonSize

open JsonText PythonJson Sorting
open String (utf8Len)

variable {F : Type} (fmt : PyFloats F)

theorem utf8Len_append (cs ds : List Char) : utf8Len (cs ++ ds) = utf8Len cs + utf8Len ds := by
  induction cs with
  | nil => simp [utf8Len]
  | cons c cs ih =>
    rw [List.cons_append, utf8Len, utf8Len, ih]
    omega

theorem utf8Size_ascii {c : Char} (h : c.toNat < 128) : c.utf8Size = 1 := by
  have hle : c.val ≤ 0x7f := by
    rw [UInt32.le_iff_toNat_le]
    have hval : c.val.toNat < 128 := h
    have hconst : (0x7f : UInt32).toNat = 127 := rfl
    omega
  unfold Char.utf8Size
  exact if_pos hle

theorem utf8Len_ascii {cs : List Char} (h : ∀ c ∈ cs, c.toNat < 128) : utf8Len cs = cs.length := by
  induction cs with
  | nil => rfl
  | cons c cs ih =>
    rw [utf8Len, ih fun d hd => h d (List.mem_cons_of_mem c hd), utf8Size_ascii (h c List.mem_cons_self)]
    rfl

theorem hexDigit_ascii {n : Nat} (h : n < 16) : (hexDigit n).toNat < 128 := by
  have hall : ∀ m < 16, (hexDigit m).toNat < 128 := by decide
  exact hall n h

/-- A character inside quotes takes six bytes at most. -/
theorem escapeChar_size (c : Char) : utf8Len (escapeChar c) ≤ 6 := by
  unfold escapeChar
  split
  · decide
  · split
    · decide
    · split
      · decide
      · split
        · decide
        · split
          · decide
          · split
            · decide
            · split
              · decide
              · split
                · have hhigh := hexDigit_ascii (n := c.toNat / 16) (by omega)
                  have hlow := hexDigit_ascii (n := c.toNat % 16) (by omega)
                  rw [utf8Len_ascii]
                  · rfl
                  · intro d hd
                    simp only [List.mem_cons, List.not_mem_nil, or_false] at hd
                    rcases hd with rfl | rfl | rfl | rfl | rfl | rfl
                    · decide
                    · decide
                    · decide
                    · decide
                    · exact hhigh
                    · exact hlow
                · have hle := Char.utf8Size_le_four c
                  simp only [utf8Len]
                  omega

theorem quote_size (s : String) : utf8Len (quote s) ≤ 2 + 6 * s.length := by
  have hbody : ∀ cs : List Char, utf8Len (cs.flatMap escapeChar) ≤ 6 * cs.length := by
    intro cs
    induction cs with
    | nil => exact Nat.le_refl 0
    | cons c cs ih =>
      have hc := escapeChar_size c
      rw [List.flatMap_cons, utf8Len_append, List.length_cons]
      omega
  have hlen := hbody s.toList
  have hquote : '"'.utf8Size = 1 := rfl
  rw [String.length_toList] at hlen
  unfold quote
  rw [utf8Len, utf8Len_append]
  simp only [utf8Len]
  omega

theorem intText_size {n : Int} (h : printable n = true) : utf8Len (intText n) ≤ maxStrDigits + 1 := by
  have hdigits : (Nat.toDigits 10 n.natAbs).length ≤ maxStrDigits := by simpa [printable] using h
  have hascii : ∀ c ∈ Nat.toDigits 10 n.natAbs, c.toNat < 128 := by
    intro c hc
    have hd := (toDigits_integerPart n.natAbs).1 c hc
    simp only [Char.isDigit, Bool.and_eq_true, decide_eq_true_eq, UInt32.le_iff_toNat_le] at hd
    have hval : c.toNat ≤ 57 := hd.2
    omega
  unfold intText
  by_cases hn : n < 0
  · have hminus : '-'.utf8Size = 1 := rfl
    rw [if_pos hn, utf8Len, utf8Len_ascii hascii]
    omega
  · rw [if_neg hn, utf8Len_ascii hascii]
    omega

/-- The value has a canonical text of at most so many bytes. -/
def Fits (most : Nat) (v : PyValue F) : Prop :=
  ∃ j, encode fmt v = some j ∧ utf8Len (write fmt.toFloatFormat j) ≤ most

theorem Fits.mono {n m : Nat} {v : PyValue F} (h : Fits fmt n v) (hle : n ≤ m) : Fits fmt m v := by
  obtain ⟨j, hj, hsize⟩ := h
  exact ⟨j, hj, hsize.trans hle⟩

theorem fits_none : Fits fmt 4 .none := ⟨.null, rfl, Nat.le_refl 4⟩

theorem fits_bool (b : Bool) : Fits fmt 5 (.bool b) := by
  refine ⟨.bool b, rfl, ?_⟩
  cases b <;> rw [write] <;> decide

theorem fits_str {s : String} {n : Nat} (h : s.length ≤ n) : Fits fmt (2 + 6 * n) (.str s) := by
  refine ⟨.str s, rfl, ?_⟩
  have hsize := quote_size s
  change utf8Len (quote s) ≤ _
  omega

theorem fits_int {n : Int} (h : printable n = true) : Fits fmt (maxStrDigits + 1) (.int n) := by
  refine ⟨.int n, ?_, intText_size h⟩
  rw [encode, if_pos h]

theorem writeItems_size (js : List (Json F)) :
    utf8Len (writeItems fmt.toFloatFormat js) ≤ 1 + (js.map fun j => 1 + utf8Len (write fmt.toFloatFormat j)).sum := by
  induction js with
  | nil => exact Nat.le_refl 1
  | cons j js ih =>
    have hcomma : ','.utf8Size = 1 := rfl
    rw [writeItems, utf8Len, utf8Len_append, List.map_cons, List.sum_cons]
    omega

theorem write_arr_size (js : List (Json F)) : utf8Len (write fmt.toFloatFormat (.arr js)) ≤
    2 + (js.map fun j => 1 + utf8Len (write fmt.toFloatFormat j)).sum := by
  cases js with
  | nil => exact Nat.le_refl 2
  | cons j js =>
    have hbracket : '['.utf8Size = 1 := rfl
    have hjs := writeItems_size fmt js
    rw [write, utf8Len, utf8Len_append, List.map_cons, List.sum_cons]
    omega

/-- A list fits when each of its items does. -/
theorem fits_list {i : Option Nat} {items : List (PyValue F)} {n : Nat} (h : ∀ v ∈ items, Fits fmt n v) :
    Fits fmt (2 + items.length * (1 + n)) (.list i items) := by
  have hencoded : ∃ js, List.Forall₂ (fun v j => encode fmt v = some j) items js ∧
      (js.map fun j => 1 + utf8Len (write fmt.toFloatFormat j)).sum ≤ items.length * (1 + n) := by
    induction items with
    | nil => exact ⟨[], .nil, Nat.zero_le _⟩
    | cons v items ih =>
      obtain ⟨js, hjs, hsum⟩ := ih fun w hw => h w (List.mem_cons_of_mem v hw)
      obtain ⟨j, hj, hsize⟩ := h v List.mem_cons_self
      refine ⟨j :: js, .cons hj hjs, ?_⟩
      rw [List.map_cons, List.sum_cons, List.length_cons, Nat.succ_mul]
      omega
  obtain ⟨js, hjs, hsum⟩ := hencoded
  refine ⟨.arr js, ?_, (write_arr_size fmt js).trans (Nat.add_le_add_left hsum 2)⟩
  rw [encode, (encodeItems_some fmt).mpr hjs]
  rfl

/-- What a member takes besides its value: the quoted key, the colon and a comma. -/
def keySize (key : String) : Nat := 4 + 6 * key.length

theorem writeMember_size (m : String × Json F) {n : Nat} (h : utf8Len (write fmt.toFloatFormat m.2) ≤ n) :
    utf8Len (writeMember fmt.toFloatFormat m) + 1 ≤ keySize m.1 + n := by
  obtain ⟨key, value⟩ := m
  have hcolon : ':'.utf8Size = 1 := rfl
  have hkey := quote_size key
  rw [writeMember, utf8Len_append]
  simp only [utf8Len, keySize]
  simp only at h
  omega

theorem writeMembers_size (ms : List (String × Json F)) :
    utf8Len (writeMembers fmt.toFloatFormat ms) ≤
      1 + (ms.map fun m => keySize m.1 + utf8Len (write fmt.toFloatFormat m.2)).sum := by
  induction ms with
  | nil => exact Nat.le_refl 1
  | cons m ms ih =>
    have hcomma : ','.utf8Size = 1 := rfl
    have hm := writeMember_size fmt m (Nat.le_refl _)
    rw [writeMembers, utf8Len, utf8Len_append, List.map_cons, List.sum_cons]
    omega

theorem write_obj_size (ms : List (String × Json F)) : utf8Len (write fmt.toFloatFormat (.obj ms)) ≤
    2 + (ms.map fun m => keySize m.1 + utf8Len (write fmt.toFloatFormat m.2)).sum := by
  cases ms with
  | nil => exact Nat.le_refl 2
  | cons m ms =>
    have hbrace : '\x7b'.utf8Size = 1 := rfl
    have hm := writeMember_size fmt m (Nat.le_refl _)
    have hms := writeMembers_size fmt ms
    rw [write, utf8Len, utf8Len_append, List.map_cons, List.sum_cons]
    omega

/-- A dictionary of text keys fits when each of its values does. -/
theorem fits_dict {i : Option Nat} {fields : List (String × PyValue F)} {sizes : List Nat}
    (h : List.Forall₂ (fun e n => Fits fmt n e.2) fields sizes) :
    Fits fmt (2 + (((fields.map Prod.fst).map keySize).sum + sizes.sum))
      (.dict i (fields.map fun e => (.str e.1, e.2))) := by
  have hwritten : ∃ ms, List.Forall₂ (Written fmt) (fields.map fun e => (PyKey.str e.1, e.2)) ms ∧
      (ms.all fun m => m.1.isStr) = true ∧
      (ms.map fun m => keySize m.2.1 + utf8Len (write fmt.toFloatFormat m.2.2)).sum ≤
        ((fields.map Prod.fst).map keySize).sum + sizes.sum := by
    induction h with
    | nil => exact ⟨[], .nil, rfl, by simp⟩
    | @cons e n fields sizes hhead _ ih =>
      obtain ⟨ms, hms, hstr, hsum⟩ := ih
      obtain ⟨j, hj, hsize⟩ := hhead
      refine ⟨(.str e.1, e.1, j) :: ms, .cons ⟨rfl, rfl, ?_, hj⟩ hms, ?_, ?_⟩
      · exact (String.ofList_toList).symm
      · rw [List.all_cons, hstr]
        rfl
      · simp only [List.map_cons, List.sum_cons]
        omega
  obtain ⟨ms, hms, hstr, hsum⟩ := hwritten
  have hsortable : sortable ms = true := by
    unfold sortable
    rw [hstr]
    simp
  refine ⟨_, (encode_dict fmt).mpr ⟨ms, hms, hsortable, rfl⟩, ?_⟩
  have hperm := sortBy_perm (fun m : PyKey F × String × Json F => keyRank fmt m.1) ms
  have hwrite := write_obj_size fmt ((sortBy (fun m => keyRank fmt m.1) ms).map Prod.snd)
  have hsame := (hperm.map fun m => keySize m.2.1 + utf8Len (write fmt.toFloatFormat m.2.2)).sum_nat
  rw [List.map_map] at hwrite
  refine hwrite.trans (Nat.add_le_add_left ?_ 2)
  exact le_of_eq_of_le hsame hsum

/-- The canonical text of a value that fits. -/
theorem Fits.dumps {most : Nat} {v : PyValue F} (h : Fits fmt most v) :
    ∃ t, PythonJson.dumps fmt v = some t ∧ t.utf8ByteSize ≤ most := by
  obtain ⟨j, hj, hsize⟩ := h
  refine ⟨_, (dumps_some fmt).mpr ⟨j, hj, rfl⟩, ?_⟩
  rw [String.utf8ByteSize_ofList]
  exact hsize

/-- The size of the canonical text, computed on its characters. -/
theorem dumps_any_size (most : Nat) (v : PyValue F) :
    ((PythonJson.dumps fmt v).any fun t => t.utf8ByteSize ≤ most) =
      (encode fmt v).any fun j => utf8Len (write fmt.toFloatFormat j) ≤ most := by
  unfold PythonJson.dumps
  rw [Option.any_map]
  refine congrArg (fun p => Option.any p (encode fmt v)) ?_
  funext j
  exact congrArg (fun n => decide (n ≤ most)) (String.utf8ByteSize_ofList _)

end JsonSize
