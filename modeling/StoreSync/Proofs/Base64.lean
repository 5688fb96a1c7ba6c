import Mathlib.Tactic.Lemma
import StoreSync.Text.Base64

/-!
# Bytes in Base64 and back

What is encoded decodes to the bytes it was encoded from (`Text.Base64.decode_encode`).

The encoder writes three bytes as four symbols.  The decoder reads groups of four from the front as
long as something follows them, and the last one with its padding, so the induction is on the groups
of the encoder (`Text.Base64.decodeFrom_encodeBytes`), and the three ways in which bytes can end
(`Text.Base64.decodeLast_one`, `decodeLast_two`, `decodeLast_three`) are its leaves.  That four
six-bit values carry three bytes is arithmetic on each byte.
-/

namespace StoreSync.Text.Base64

/-! ## Symbols as bytes -/

/-- The byte of a symbol in the text. -/
def symbolByte (c : Char) : UInt8 := UInt8.ofNat c.toNat

lemma toNat_symbol_le (n : Nat) : (symbol n).toNat ≤ 127 := by
  by_cases h : n < 64
  · revert n
    decide
  · have hslash : symbol n = '/' := by
      unfold symbol
      rw [if_neg (by omega), if_neg (by omega), if_neg (by omega), if_neg (by omega)]
    rw [hslash]
    decide

/-- A symbol has its value, and is no padding. -/
lemma value?_symbol {n : Nat} (h : n < 64) : value? (symbolByte (symbol n)) = some n := by
  revert n
  decide

lemma valueAt_symbol {n : Nat} (h : n < 64) (offset : Nat) :
    valueAt offset (symbolByte (symbol n)) = .ok n := by
  rw [valueAt, value?_symbol h]

lemma symbolByte_ne_pad {n : Nat} (h : n < 64) : symbolByte (symbol n) ≠ pad := by
  intro heq
  have hvalue := value?_symbol h
  rw [heq] at hvalue
  simp [value?, pad] at hvalue

/-! ## Texts as bytes -/

lemma toList_loop (bytes : ByteArray) (i : Nat) (seen : List UInt8) :
    ByteArray.toList.loop bytes i seen = seen.reverse ++ bytes.data.toList.drop i := by
  induction i, seen using ByteArray.toList.loop.induct bytes with
  | case1 i seen h ih =>
    have hget : bytes.get! i = bytes.data.toList[i] := getElem!_pos bytes.data i h
    rw [ByteArray.toList.loop, if_pos h, ih, List.drop_eq_getElem_cons h, hget]
    simp
  | case2 i seen h =>
    have hdone : bytes.data.toList.length ≤ i := Nat.le_of_not_gt h
    rw [ByteArray.toList.loop, if_neg h, List.drop_of_length_le hdone, List.append_nil]

lemma toList_toUTF8_ofList {cs : List Char} (h : ∀ c ∈ cs, c.toNat ≤ 127) :
    (String.ofList cs).toUTF8.toList = cs.map symbolByte := by
  have hbytes : cs.flatMap String.utf8EncodeChar = cs.map symbolByte := by
    induction cs with
    | nil => rfl
    | cons c rest ih =>
      have hc : c.val.toNat ≤ 127 := h c List.mem_cons_self
      have hone : String.utf8EncodeChar c = [symbolByte c] := by
        rw [String.utf8EncodeChar]
        exact if_pos hc
      rw [List.flatMap_cons, List.map_cons, hone, ih fun d hd => h d (List.mem_cons_of_mem _ hd)]
      rfl
  show ByteArray.toList.loop (cs.flatMap String.utf8EncodeChar).toByteArray 0 [] = _
  rw [toList_loop, hbytes]
  simp

/-! ## Groups -/

/-- The six-bit values of three bytes carry them. -/
lemma groupBytes_split (a b c : UInt8) :
    groupBytes (a.toNat / 4) (a.toNat % 4 * 16 + b.toNat / 16) (b.toNat % 16 * 4 + c.toNat / 64)
      (c.toNat % 64) = [a, b, c] := by
  have ha := a.toNat_lt
  have hb := b.toNat_lt
  have hc := c.toNat_lt
  rw [groupBytes, show a.toNat / 4 * 4 + (a.toNat % 4 * 16 + b.toNat / 16) / 16 = a.toNat by omega,
    show (a.toNat % 4 * 16 + b.toNat / 16) % 16 * 16 + (b.toNat % 16 * 4 + c.toNat / 64) / 4 =
      b.toNat by omega,
    show (b.toNat % 16 * 4 + c.toNat / 64) % 4 * 64 + c.toNat % 64 = c.toNat by omega]
  simp

/-- The symbols of a padded text, as bytes. -/
def symbolBytes (bytes : List UInt8) : List UInt8 := (encodeBytes bytes).map symbolByte

lemma splitPadding_symbol {n : Nat} (h : n < 64) (offset place : Nat) (rest : List UInt8) :
    splitPadding offset place 0 (symbolByte (symbol n) :: rest) =
      (splitPadding offset (place + 1) 0 rest).map fun r => (n :: r.1, r.2) := by
  rw [splitPadding, if_neg (symbolByte_ne_pad h), if_neg (Nat.lt_irrefl 0), valueAt_symbol h]
  show (splitPadding offset (place + 1) 0 rest >>= fun r => pure (n :: r.1, r.2)) = _
  cases splitPadding offset (place + 1) 0 rest <;> rfl

lemma decodeLast_one (offset : Nat) (a : UInt8) :
    decodeLast offset (symbolBytes [a]) = .ok [a] := by
  have ha := a.toNat_lt
  have hsplit : splitPadding offset 0 0 (symbolBytes [a]) =
      .ok ([a.toNat / 4, a.toNat % 4 * 16], 2) := by
    simp only [symbolBytes, encodeBytes, List.map_cons, List.map_nil]
    rw [splitPadding_symbol (by omega), splitPadding_symbol (by omega)]
    rfl
  simp only [decodeLast, hsplit, bind, Except.bind]
  rw [if_neg (by decide), if_neg (by omega),
    show a.toNat / 4 * 4 + a.toNat % 4 * 16 / 16 = a.toNat by omega, UInt8.ofNat_toNat]

lemma decodeLast_two (offset : Nat) (a b : UInt8) :
    decodeLast offset (symbolBytes [a, b]) = .ok [a, b] := by
  have ha := a.toNat_lt
  have hb := b.toNat_lt
  have hsplit : splitPadding offset 0 0 (symbolBytes [a, b]) =
      .ok ([a.toNat / 4, a.toNat % 4 * 16 + b.toNat / 16, b.toNat % 16 * 4], 1) := by
    simp only [symbolBytes, encodeBytes, List.map_cons, List.map_nil]
    rw [splitPadding_symbol (by omega), splitPadding_symbol (by omega),
      splitPadding_symbol (by omega)]
    rfl
  simp only [decodeLast, hsplit, bind, Except.bind]
  rw [if_neg (by decide), if_neg (by omega),
    show a.toNat / 4 * 4 + (a.toNat % 4 * 16 + b.toNat / 16) / 16 = a.toNat by omega,
    show (a.toNat % 4 * 16 + b.toNat / 16) % 16 * 16 + b.toNat % 16 * 4 / 4 = b.toNat by omega,
    UInt8.ofNat_toNat, UInt8.ofNat_toNat]

lemma decodeLast_three (offset : Nat) (a b c : UInt8) :
    decodeLast offset (symbolBytes [a, b, c]) = .ok [a, b, c] := by
  have ha := a.toNat_lt
  have hb := b.toNat_lt
  have hc := c.toNat_lt
  have hsplit : splitPadding offset 0 0 (symbolBytes [a, b, c]) =
      .ok ([a.toNat / 4, a.toNat % 4 * 16 + b.toNat / 16, b.toNat % 16 * 4 + c.toNat / 64,
        c.toNat % 64], 0) := by
    simp only [symbolBytes, encodeBytes, List.map_cons, List.map_nil]
    rw [splitPadding_symbol (by omega), splitPadding_symbol (by omega),
      splitPadding_symbol (by omega), splitPadding_symbol (by omega)]
    rfl
  simp only [decodeLast, hsplit, bind, Except.bind]
  rw [groupBytes_split]

/-- Four symbols in front of others are three bytes. -/
lemma decodeFrom_group (offset : Nat) (a b c : UInt8) {rest : List UInt8} (h : rest ≠ []) :
    decodeFrom offset (symbolBytes [a, b, c] ++ rest) =
      (decodeFrom (offset + 4) rest).map ([a, b, c] ++ ·) := by
  obtain ⟨x, rest, rfl⟩ := List.exists_cons_of_ne_nil h
  have ha := a.toNat_lt
  have hb := b.toNat_lt
  have hc := c.toNat_lt
  have h₁ : a.toNat / 4 < 64 := by omega
  have h₂ : a.toNat % 4 * 16 + b.toNat / 16 < 64 := by omega
  have h₃ : b.toNat % 16 * 4 + c.toNat / 64 < 64 := by omega
  have h₄ : c.toNat % 64 < 64 := by omega
  simp only [symbolBytes, encodeBytes, List.map_cons, List.map_nil, List.cons_append,
    List.nil_append, decodeFrom, valueAt_symbol h₁, valueAt_symbol h₂, valueAt_symbol h₃,
    valueAt_symbol h₄, bind, Except.bind, pure, Except.pure, groupBytes_split]
  cases decodeFrom (offset + 4) (x :: rest) <;> rfl

lemma symbolBytes_cons (a b c : UInt8) (rest : List UInt8) :
    symbolBytes (a :: b :: c :: rest) = symbolBytes [a, b, c] ++ symbolBytes rest := by
  simp [symbolBytes, encodeBytes]

lemma length_symbolBytes_mod (bytes : List UInt8) : (symbolBytes bytes).length % 4 = 0 := by
  fun_induction encodeBytes bytes with
  | case1 | case2 | case3 => simp [symbolBytes, encodeBytes]
  | case4 a b c rest ih =>
    rw [symbolBytes_cons, List.length_append, show (symbolBytes [a, b, c]).length = 4 from rfl]
    omega

lemma symbolBytes_ne_nil {bytes : List UInt8} (h : bytes ≠ []) : symbolBytes bytes ≠ [] := by
  match bytes with
  | [a] | [a, b] | a :: b :: c :: rest => simp [symbolBytes, encodeBytes]

lemma decodeFrom_encodeBytes (bytes : List UInt8) (offset : Nat) :
    decodeFrom offset (symbolBytes bytes) = .ok bytes := by
  fun_induction encodeBytes bytes generalizing offset with
  | case1 => rfl
  | case2 a => exact decodeLast_one offset a
  | case3 a b => exact decodeLast_two offset a b
  | case4 a b c rest ih =>
    by_cases hrest : rest = []
    · rw [hrest]
      exact decodeLast_three offset a b c
    · rw [symbolBytes_cons, decodeFrom_group offset a b c (symbolBytes_ne_nil hrest), ih]
      rfl

lemma toNat_le_of_mem_encodeBytes {bytes : List UInt8} {c : Char} (h : c ∈ encodeBytes bytes) :
    c.toNat ≤ 127 := by
  have hpad : ('=').toNat ≤ 127 := by decide
  fun_induction encodeBytes bytes with
  | case1 => simp at h
  | case2 a =>
    simp only [List.mem_cons, List.not_mem_nil, or_false] at h
    rcases h with rfl | rfl | rfl | rfl
    · exact toNat_symbol_le _
    · exact toNat_symbol_le _
    · exact hpad
    · exact hpad
  | case3 a b =>
    simp only [List.mem_cons, List.not_mem_nil, or_false] at h
    rcases h with rfl | rfl | rfl | rfl
    · exact toNat_symbol_le _
    · exact toNat_symbol_le _
    · exact toNat_symbol_le _
    · exact hpad
  | case4 a b c rest ih =>
    simp only [List.mem_cons] at h
    rcases h with rfl | rfl | rfl | rfl | h
    · exact toNat_symbol_le _
    · exact toNat_symbol_le _
    · exact toNat_symbol_le _
    · exact toNat_symbol_le _
    · exact ih h

/-- **Bytes come back from their Base64 text.** -/
theorem decode_encode (bytes : List UInt8) : decode (encode bytes) = .ok bytes := by
  rw [decode, encode, toList_toUTF8_ofList fun c hc => toNat_le_of_mem_encodeBytes hc]
  show decodeBytes (symbolBytes bytes) = _
  unfold decodeBytes
  split
  · rw [if_neg (by simp [length_symbolBytes_mod]), decodeFrom_encodeBytes]
  next hnone =>
    by_cases hbytes : bytes = []
    · rw [hbytes]
    · exact absurd (List.getLast?_eq_none_iff.1 hnone) (symbolBytes_ne_nil hbytes)

end StoreSync.Text.Base64
