import Mathlib.Data.List.Basic
import Mathlib.Data.String.Basic
import StoreSync.Json.Parser
import StoreSync.Json.Printer

/-!
# What is written can be read

A data value that is printed with its indentation and parsed again is the value that was printed
(`Json.parse?_pretty`), and so is one that is printed without blanks (`Json.parse?_compact`), as
long as it is `Json.Plain`, that is, its numbers are whole and those that can be read, and the
members of its objects are in order, and not deeper than the parser permits.

The two halves of the parser meet in the words of a value.  `Json.Reads` relates a text to the
tokens that the scanner finds at its front, whatever follows it, and `Json.Reads.indented` and
`Json.Reads.compact` are the inductions over a value that find its words in its texts; a number is
only found where the text behind it cannot belong to it (`Json.Stops`).  `Json.run_words` is the
induction that builds the value from its words again.
-/

namespace StoreSync.Json

/-! ## Numbers -/

/-- What may follow a number: nothing that could still belong to it. -/
def Stops (cs : List Char) : Prop :=
  ∀ c rest, cs = c :: rest → isDigit c = false ∧ c ≠ '.' ∧ c ≠ 'e' ∧ c ≠ 'E'

lemma isDigit_digitChar : ∀ d < 10, isDigit (Nat.digitChar d) = true := by decide

lemma toNat_digitChar : ∀ d < 10, (Nat.digitChar d).toNat - 48 = d := by decide

lemma isDigit_of_mem_toDigits {n : Nat} {c : Char} (h : c ∈ Nat.toDigits 10 n) :
    isDigit c = true := by
  induction n using Nat.strongRecOn with
  | ind n ih =>
    by_cases hsmall : n < 10
    · rw [Nat.toDigits_of_lt_base hsmall, List.mem_singleton] at h
      rw [h]
      exact isDigit_digitChar n hsmall
    · rw [Nat.toDigits_of_base_le (by decide) (by omega : 10 ≤ n), List.mem_append,
        List.mem_singleton] at h
      rcases h with h | rfl
      · exact ih (n / 10) (by omega) h
      · exact isDigit_digitChar _ (by omega)

/-- A positive number does not begin with a zero. -/
lemma toDigits_ne_zero_cons {n : Nat} (hn : 0 < n) (rest : List Char) :
    Nat.toDigits 10 n ≠ '0' :: rest := by
  have hhead : ∀ d < 10, 0 < d → Nat.digitChar d ≠ '0' := by decide
  induction n using Nat.strongRecOn generalizing rest with
  | ind n ih =>
    by_cases hsmall : n < 10
    · rw [Nat.toDigits_of_lt_base hsmall]
      intro heq
      exact hhead n hsmall hn (List.head_eq_of_cons_eq heq)
    · rw [Nat.toDigits_of_base_le (by decide) (by omega : 10 ≤ n)]
      intro heq
      cases hfront : Nat.toDigits 10 (n / 10) with
      | nil => exact absurd hfront Nat.toDigits_ne_nil
      | cons c front =>
        rw [hfront, List.cons_append, List.cons.injEq] at heq
        exact ih (n / 10) (by omega) (by omega) front (heq.1 ▸ hfront)

attribute [local irreducible] Mantissa.push? in
lemma whole_cons (m : Mantissa) (c : Char) (rest : List Char) :
    Mantissa.whole m (c :: rest) =
      match m.exponent, m.push? c with
      | 0, some s => Mantissa.whole ⟨s, 0⟩ rest
      | _, _ => Mantissa.whole ⟨m.significand, m.exponent + 1⟩ rest :=
  rfl

lemma whole_append (m : Mantissa) (ds es : List Char) :
    Mantissa.whole m (ds ++ es) = Mantissa.whole (Mantissa.whole m ds) es := by
  induction ds generalizing m with
  | nil => rfl
  | cons c rest ih =>
    rw [List.cons_append, whole_cons, whole_cons]
    split
    · exact ih _
    · exact ih _

/-- One more digit, as long as the number fits into 64 bits. -/
lemma whole_digitChar {s d : Nat} (hd : d < 10) (hfits : 10 * s + d < 0x10000000000000000) :
    Mantissa.whole ⟨s, 0⟩ [Nat.digitChar d] = ⟨10 * s + d, 0⟩ := by
  have hpush : Mantissa.push? ⟨s, 0⟩ (Nat.digitChar d) = some (10 * s + d) := by
    rw [Mantissa.push?]
    dsimp only
    rw [toNat_digitChar d hd, if_pos hfits]
  rw [whole_cons, hpush]
  rfl

/-- The digits of a number that fits into 64 bits are read as that number. -/
lemma whole_toDigits {n : Nat} (hn : n < 0x10000000000000000) :
    Mantissa.whole ⟨0, 0⟩ (Nat.toDigits 10 n) = ⟨n, 0⟩ := by
  induction n using Nat.strongRecOn with
  | ind n ih =>
    by_cases hsmall : n < 10
    · rw [Nat.toDigits_of_lt_base hsmall, whole_digitChar hsmall (by omega)]
      simp
    · have hlast : 10 * (n / 10) + n % 10 = n := by omega
      rw [Nat.toDigits_of_base_le (by decide) (by omega : 10 ≤ n), whole_append,
        ih (n / 10) (by omega) (by omega), whole_digitChar (by omega) (by omega), hlast]

lemma digits_append {ds rest : List Char} (hds : ∀ c ∈ ds, isDigit c = true)
    (hrest : Stops rest) : digits (ds ++ rest) = (ds, rest) := by
  have hnone : rest.takeWhile isDigit = [] ∧ rest.dropWhile isDigit = rest := by
    cases rest with
    | nil => exact ⟨rfl, rfl⟩
    | cons c rest =>
      have hc := (hrest c rest rfl).1
      simp [hc]
  rw [digits, List.takeWhile_append_of_pos hds, List.dropWhile_append_of_pos hds, hnone.1,
    hnone.2, List.append_nil]

/-- The digits of a number are read up to their end. -/
lemma readNumber_toDigits (negative : Bool) {n : Nat} (hn : n < 0x10000000000000000)
    {rest : List Char} (hrest : Stops rest) :
    readNumber negative (Nat.toDigits 10 n ++ rest) =
      readNumber.whole negative ⟨n, 0⟩ rest := by
  have hdigits : digits (Nat.toDigits 10 n ++ rest) = (Nat.toDigits 10 n, rest) :=
    digits_append (fun c hc => isDigit_of_mem_toDigits hc) hrest
  have hzero : ∀ c front, Nat.toDigits 10 n ≠ '0' :: c :: front := by
    intro c front heq
    rcases Nat.eq_zero_or_pos n with rfl | hpos
    · simp at heq
    · exact toDigits_ne_zero_cons hpos _ heq
  rw [readNumber, hdigits]
  dsimp only
  split
  · next heq => exact absurd heq Nat.toDigits_ne_nil
  · next heq => exact absurd heq (hzero _ _)
  · rw [whole_toDigits hn]
    split
    · next c' => exact absurd rfl (hrest _ _ rfl).2.1
    · next c rest' _ =>
      obtain ⟨-, -, he, hE⟩ := hrest _ _ rfl
      rw [if_neg (by simp [he, hE])]
    · rfl

/-! ## Texts -/

lemma hexCode?_hexByte : ∀ n < 32, hexCode? '0' '0' (Nat.digitChar (n / 16 % 16))
    (Nat.digitChar (n % 16)) = some n := by decide

/-- A character in a quoted text is read as itself. -/
lemma readString_escapeChar (acc : List Char) (c : Char) (rest : List Char) :
    readString acc (escapeChar c ++ rest) = readString (c :: acc) rest := by
  unfold escapeChar
  split_ifs with h1 h2 h3 h4 h5 h6 h7 h8
  · subst h1
    simp [readString, simpleEscape?]
  · subst h2
    simp [readString, simpleEscape?]
  · subst h3
    simp [readString, simpleEscape?]
  · subst h4
    simp [readString, simpleEscape?]
  · subst h5
    simp [readString, simpleEscape?]
  · obtain rfl : c = '\x08' := Char.toNat_inj.1 h6
    simp [readString, simpleEscape?]
  · obtain rfl : c = '\x0c' := Char.toNat_inj.1 h7
    simp [readString, simpleEscape?]
  · have hcode := hexCode?_hexByte c.toNat h8
    simp only [hexByte, List.cons_append, List.nil_append]
    rw [readString, hcode]
    dsimp only
    rw [if_neg (by omega), if_neg (by omega), Char.ofNat_toNat]
  · rw [List.singleton_append, readString.eq_def]
    split <;> simp_all

/-- A quoted text is read as itself. -/
lemma readString_flatMap (acc cs rest : List Char) :
    readString acc (cs.flatMap escapeChar ++ '"' :: rest) =
      some (String.ofList (acc.reverse ++ cs), rest) := by
  induction cs generalizing acc with
  | nil => simp [readString]
  | cons c cs ih =>
    rw [List.flatMap_cons, List.append_assoc, readString_escapeChar, ih]
    simp

/-! ## Tokens -/

variable {cs rest : List Char} {ts : List Token} {c : Char}

/-- A text is cut into tokens. -/
def Reads (cs : List Char) (ts : List Token) : Prop :=
  ∀ fuel, cs.length ≤ fuel → tokensWithin fuel cs = some ts

lemma reads_nil : Reads [] [] := by
  intro fuel _
  cases fuel <;> rfl

lemma Reads.blank (hc : isSpace c = true) (h : Reads cs ts) : Reads (c :: cs) ts := by
  intro fuel hfuel
  have hsame : tokensWithin fuel (c :: cs) = tokensWithin fuel cs := by
    cases fuel <;> simp [tokensWithin, hc]
  rw [hsame]
  exact h fuel (by rw [List.length_cons] at hfuel; omega)

lemma Reads.newline (level : Nat) (h : Reads cs ts) :
    Reads ((newline level).toList ++ cs) ts := by
  have hblanks : ∀ n, Reads (List.replicate n ' ' ++ cs) ts := by
    intro n
    induction n with
    | zero => exact h
    | succ n ih => exact ih.blank rfl
  simp only [Json.newline, String.toList_append, String.toList_ofList, List.append_assoc]
  exact (hblanks _).blank rfl

lemma Reads.token {t : Token} (hc : isSpace c = false)
    (htoken : readToken (c :: cs) = some (t, rest)) (hshort : rest.length ≤ cs.length)
    (h : Reads rest ts) : Reads (c :: cs) (t :: ts) := by
  intro fuel hfuel
  rw [List.length_cons] at hfuel
  cases fuel with
  | zero => omega
  | succ fuel =>
    simp only [tokensWithin, List.dropWhile_cons, hc, Bool.false_eq_true, if_false, htoken]
    simp [h fuel (by omega)]

lemma Reads.quoted (s : String) (h : Reads cs ts) :
    Reads ((quoted s).toList ++ cs) (.scalar (.string s) :: ts) := by
  have htext : (Json.quoted s).toList ++ cs =
      '"' :: (s.toList.flatMap escapeChar ++ '"' :: cs) := by
    simp [Json.quoted]
  rw [htext]
  refine Reads.token rfl ?_ (by simp; omega) h
  rw [readToken, readString_flatMap]
  simp

/-- A digit begins a number. -/
lemma readToken_digit (hc : isDigit c = true) (cs : List Char) : readToken (c :: cs) =
    (readNumber false (c :: cs)).map fun (n, rest) => (.scalar n, rest) := by
  have hdigit : ∀ d rest, c :: cs = d :: rest → isDigit d = true := by
    intro d rest heq
    rw [← List.head_eq_of_cons_eq heq]
    exact hc
  rw [readToken.eq_def]
  split
  case h_12 => rfl
  all_goals next heq => exact absurd (hdigit _ _ heq) (by decide)

lemma Reads.natural {n : Nat} (hn : n < 0x10000000000000000) (hcs : Stops cs) (h : Reads cs ts) :
    Reads (Nat.toDigits 10 n ++ cs) (.scalar (.number (.integer n)) :: ts) := by
  have hnumber : readNumber false (Nat.toDigits 10 n ++ cs) =
      some (.number (.integer n), cs) := by
    rw [readNumber_toDigits false hn hcs]
    simp [readNumber.whole]
  cases hdigits : Nat.toDigits 10 n with
  | nil => exact absurd hdigits Nat.toDigits_ne_nil
  | cons c front =>
    have hc : isDigit c = true :=
      isDigit_of_mem_toDigits (n := n) (by rw [hdigits]; exact List.mem_cons_self)
    have hspace : isSpace c = false := by
      by_contra hblank
      simp only [isSpace, Bool.not_eq_false, Bool.or_eq_true, decide_eq_true_eq] at hblank
      rcases hblank with ((rfl | rfl) | rfl) | rfl <;> exact absurd hc (by decide)
    rw [hdigits, List.cons_append] at hnumber
    rw [List.cons_append]
    refine Reads.token hspace ?_ (by simp) h
    rw [readToken_digit hc, hnumber]
    rfl

lemma Reads.negative {n : Nat} (hpos : 0 < n) (hn : n ≤ 0x8000000000000000) (hcs : Stops cs)
    (h : Reads cs ts) :
    Reads ('-' :: (Nat.toDigits 10 n ++ cs)) (.scalar (.number (.integer (-n))) :: ts) := by
  have hnumber : readNumber true (Nat.toDigits 10 n ++ cs) =
      some (.number (.integer (-n)), cs) := by
    rw [readNumber_toDigits true (by omega) hcs]
    have hsmall : ¬(n = 0 ∨ 0x8000000000000000 < n) := by omega
    simp [readNumber.whole, hsmall]
  refine Reads.token rfl ?_ (by simp) h
  rw [readToken, hnumber]
  rfl

/-- An integer of 64 bits is read as itself. -/
lemma Reads.integer {i : Int} (hlow : -0x8000000000000000 ≤ i) (hhigh : i < 0x10000000000000000)
    (hcs : Stops cs) (h : Reads cs ts) :
    Reads ((toString i).toList ++ cs) (.scalar (.number (.integer i)) :: ts) := by
  cases i with
  | ofNat n =>
    have htext : (toString (Int.ofNat n)).toList = Nat.toDigits 10 n := by
      show (Nat.repr n).toList = _
      rw [Nat.repr_eq_ofList_toDigits, String.toList_ofList]
    rw [htext]
    rw [Int.ofNat_eq_natCast] at hhigh
    exact h.natural (by omega) hcs
  | negSucc n =>
    have htext : (toString (Int.negSucc n)).toList = '-' :: Nat.toDigits 10 (n + 1) := by
      show ("-" ++ Nat.repr (n + 1)).toList = _
      simp [Nat.repr_eq_ofList_toDigits]
    rw [htext]
    exact h.negative (by omega) (by omega) hcs

/-! ## Values -/

mutual

/-- A value without fractions, whose integers have 64 bits and whose members stand in order. -/
def Plain : Json → Prop
  | .number (.integer i) => -0x8000000000000000 ≤ i ∧ i < 0x10000000000000000
  | .number (.fraction _) => False
  | .array items => PlainItems items
  | .members fields => fields.Pairwise (fun a b => a.1 < b.1) ∧ PlainMembers fields
  | .null | .boolean _ | .string _ => True

def PlainItems : List Json → Prop
  | [] => True
  | item :: rest => Plain item ∧ PlainItems rest

def PlainMembers : List (String × Json) → Prop
  | [] => True
  | (_, value) :: rest => Plain value ∧ PlainMembers rest

end

mutual

/-- The words of a value. -/
def words : Json → List Token
  | .array [] => [.openArray, .closeArray]
  | .array (item :: rest) => .openArray :: (words item ++ wordsItems rest ++ [.closeArray])
  | .members [] => [.openObject, .closeObject]
  | .members ((name, value) :: rest) =>
    .openObject :: .scalar (.string name) :: .colon ::
      (words value ++ wordsMembers rest ++ [.closeObject])
  | v => [.scalar v]

/-- The words of the items after the first one. -/
def wordsItems : List Json → List Token
  | [] => []
  | item :: rest => .comma :: (words item ++ wordsItems rest)

/-- The words of the members after the first one. -/
def wordsMembers : List (String × Json) → List Token
  | [] => []
  | (name, value) :: rest =>
    .comma :: .scalar (.string name) :: .colon :: (words value ++ wordsMembers rest)

end

lemma stops_nil : Stops [] := by
  intro c rest h
  cases h

lemma stops_cons {c : Char} (hdigit : isDigit c = false) (hpoint : c ≠ '.') (he : c ≠ 'e')
    (hE : c ≠ 'E') (cs : List Char) : Stops (c :: cs) := by
  intro c' rest heq
  obtain ⟨rfl, -⟩ := List.cons.inj heq
  exact ⟨hdigit, hpoint, he, hE⟩

lemma stops_newline (level : Nat) (cs : List Char) : Stops ((newline level).toList ++ cs) := by
  have hhead : (newline level).toList ++ cs =
      '\n' :: (List.replicate (2 * level) ' ' ++ cs) := by
    simp [newline]
  rw [hhead]
  exact stops_cons rfl (by decide) (by decide) (by decide) _

lemma stops_indentedItems (level : Nat) (items : List Json) {cs : List Char} (hcs : Stops cs) :
    Stops ((indentedItems level items).toList ++ cs) := by
  cases items with
  | nil => simpa [indentedItems] using hcs
  | cons item rest =>
    simp only [indentedItems, String.toList_append, List.append_assoc]
    exact stops_cons rfl (by decide) (by decide) (by decide) _

lemma stops_indentedMembers (level : Nat) (fields : List (String × Json)) {cs : List Char}
    (hcs : Stops cs) : Stops ((indentedMembers level fields).toList ++ cs) := by
  rcases fields with _ | ⟨⟨name, value⟩, rest⟩
  · simpa [indentedMembers] using hcs
  · simp only [indentedMembers, String.toList_append, List.append_assoc]
    exact stops_cons rfl (by decide) (by decide) (by decide) _

lemma Reads.null (h : Reads cs ts) : Reads ("null".toList ++ cs) (.scalar .null :: ts) := by
  have hword : Reads ('n' :: 'u' :: 'l' :: 'l' :: cs) (.scalar .null :: ts) :=
    Reads.token rfl rfl (by simp; omega) h
  simpa using hword

lemma Reads.boolean (b : Bool) (h : Reads cs ts) :
    Reads ((if b then "true" else "false").toList ++ cs) (.scalar (.boolean b) :: ts) := by
  cases b with
  | true =>
    have hword : Reads ('t' :: 'r' :: 'u' :: 'e' :: cs) (.scalar (.boolean true) :: ts) :=
      Reads.token rfl rfl (by simp; omega) h
    simpa using hword
  | false =>
    have hword : Reads ('f' :: 'a' :: 'l' :: 's' :: 'e' :: cs) (.scalar (.boolean false) :: ts) :=
      Reads.token rfl rfl (by simp; omega) h
    simpa using hword

mutual

/-- The indented form is cut into the words of its value. -/
theorem Reads.indented (v : Json) (level : Nat) (hv : v.Plain) {cs : List Char}
    {ts : List Token} (hcs : Stops cs) (h : Reads cs ts) :
    Reads ((indented level v).toList ++ cs) (words v ++ ts) := by
  match v with
  | .null => exact h.null
  | .boolean b => exact h.boolean b
  | .number (.integer i) =>
    simp only [Plain] at hv
    exact h.integer hv.1 hv.2 hcs
  | .number (.fraction d) => simp [Plain] at hv
  | .string s => exact h.quoted s
  | .array [] =>
    have hclose := Reads.token (c := ']') (t := .closeArray) rfl rfl (Nat.le_refl _) h
    have hopen := Reads.token (c := '[') (t := .openArray) rfl rfl (Nat.le_refl _) hclose
    simpa [Json.indented, words] using hopen
  | .array (item :: rest) =>
    simp only [Plain, PlainItems] at hv
    have hclose := (Reads.token (c := ']') (t := .closeArray) rfl rfl (Nat.le_refl _)
      h).newline level
    have hrest := Reads.items rest (level + 1) hv.2 (stops_newline level _) hclose
    have hitem := Reads.indented item (level + 1) hv.1
      (stops_indentedItems (level + 1) rest (stops_newline level _)) hrest
    have hopen := Reads.token (c := '[') (t := .openArray) rfl rfl (Nat.le_refl _)
      (hitem.newline (level + 1))
    simpa [Json.indented, words] using hopen
  | .members [] =>
    have hclose := Reads.token (c := '\x7d') (t := .closeObject) rfl rfl (Nat.le_refl _) h
    have hopen := Reads.token (c := '\x7b') (t := .openObject) rfl rfl (Nat.le_refl _) hclose
    simpa [Json.indented, words] using hopen
  | .members ((name, value) :: rest) =>
    simp only [Plain, PlainMembers] at hv
    have hclose := (Reads.token (c := '\x7d') (t := .closeObject) rfl rfl
      (Nat.le_refl _) h).newline level
    have hrest := Reads.members rest (level + 1) hv.2.2 (stops_newline level _) hclose
    have hvalue := Reads.indented value (level + 1) hv.2.1
      (stops_indentedMembers (level + 1) rest (stops_newline level _)) hrest
    have hcolon := Reads.token (c := ':') (t := .colon) rfl rfl (Nat.le_refl _)
      (hvalue.blank (c := ' ') rfl)
    have hopen := Reads.token (c := '\x7b') (t := .openObject) rfl rfl (Nat.le_refl _)
      ((hcolon.quoted name).newline (level + 1))
    simpa [Json.indented, words] using hopen

theorem Reads.items (items : List Json) (level : Nat) (hitems : PlainItems items)
    {cs : List Char} {ts : List Token} (hcs : Stops cs) (h : Reads cs ts) :
    Reads ((indentedItems level items).toList ++ cs) (wordsItems items ++ ts) := by
  match items with
  | [] => simpa [indentedItems, wordsItems] using h
  | item :: rest =>
    simp only [PlainItems] at hitems
    have hrest := Reads.items rest level hitems.2 hcs h
    have hitem := Reads.indented item level hitems.1 (stops_indentedItems level rest hcs) hrest
    have hcomma := Reads.token (c := ',') (t := .comma) rfl rfl (Nat.le_refl _)
      (hitem.newline level)
    simpa [indentedItems, wordsItems] using hcomma

theorem Reads.members (fields : List (String × Json)) (level : Nat)
    (hfields : PlainMembers fields) {cs : List Char} {ts : List Token} (hcs : Stops cs)
    (h : Reads cs ts) :
    Reads ((indentedMembers level fields).toList ++ cs) (wordsMembers fields ++ ts) := by
  match fields with
  | [] => simpa [indentedMembers, wordsMembers] using h
  | (name, value) :: rest =>
    simp only [PlainMembers] at hfields
    have hrest := Reads.members rest level hfields.2 hcs h
    have hvalue := Reads.indented value level hfields.1
      (stops_indentedMembers level rest hcs) hrest
    have hcolon := Reads.token (c := ':') (t := .colon) rfl rfl (Nat.le_refl _)
      (hvalue.blank (c := ' ') rfl)
    have hcomma := Reads.token (c := ',') (t := .comma) rfl rfl (Nat.le_refl _)
      ((hcolon.quoted name).newline level)
    simpa [indentedMembers, wordsMembers] using hcomma

end

mutual

/-- The compact form is cut into the same words. -/
theorem Reads.compact (v : Json) (hv : v.Plain) {cs : List Char} {ts : List Token}
    (hcs : Stops cs) (h : Reads cs ts) : Reads ((compact v).toList ++ cs) (words v ++ ts) := by
  match v with
  | .null => exact h.null
  | .boolean b => exact h.boolean b
  | .number (.integer i) =>
    simp only [Plain] at hv
    exact h.integer hv.1 hv.2 hcs
  | .number (.fraction d) => simp [Plain] at hv
  | .string s => exact h.quoted s
  | .array items =>
    simp only [Plain] at hv
    have hclose := Reads.token (c := ']') (t := .closeArray) rfl rfl (Nat.le_refl _) h
    have hitems := Reads.compactItems items hv
      (stops_cons rfl (by decide) (by decide) (by decide) _) hclose
    have hopen := Reads.token (c := '[') (t := .openArray) rfl rfl (Nat.le_refl _) hitems
    cases items <;> simpa [Json.compact, words, wordsItems] using hopen
  | .members fields =>
    simp only [Plain] at hv
    have hclose := Reads.token (c := '\x7d') (t := .closeObject) rfl rfl (Nat.le_refl _) h
    have hmembers := Reads.compactMembers fields hv.2
      (stops_cons rfl (by decide) (by decide) (by decide) _) hclose
    have hopen := Reads.token (c := '\x7b') (t := .openObject) rfl rfl (Nat.le_refl _) hmembers
    cases fields <;> simpa [Json.compact, words, wordsMembers] using hopen

/-- Without a comma before the first item. -/
theorem Reads.compactItems (items : List Json) (hitems : PlainItems items) {cs : List Char}
    {ts : List Token} (hcs : Stops cs) (h : Reads cs ts) :
    Reads ((compactItems items).toList ++ cs) ((wordsItems items).tail ++ ts) := by
  match items with
  | [] => simpa [Json.compactItems, wordsItems] using h
  | [item] =>
    simp only [PlainItems] at hitems
    simpa [Json.compactItems, wordsItems] using Reads.compact item hitems.1 hcs h
  | item :: next :: rest =>
    rw [PlainItems] at hitems
    have hrest := Reads.compactItems (next :: rest) hitems.2 hcs h
    have hcomma := Reads.token (c := ',') (t := .comma) rfl rfl (Nat.le_refl _) hrest
    have hitem := Reads.compact item hitems.1
      (stops_cons rfl (by decide) (by decide) (by decide) _) hcomma
    simpa [Json.compactItems, wordsItems] using hitem

theorem Reads.compactMembers (fields : List (String × Json)) (hfields : PlainMembers fields)
    {cs : List Char} {ts : List Token} (hcs : Stops cs) (h : Reads cs ts) :
    Reads ((compactMembers fields).toList ++ cs) ((wordsMembers fields).tail ++ ts) := by
  match fields with
  | [] => simpa [Json.compactMembers, wordsMembers] using h
  | [(name, value)] =>
    simp only [PlainMembers] at hfields
    have hvalue := Reads.compact value hfields.1 hcs h
    have hcolon := Reads.token (c := ':') (t := .colon) rfl rfl (Nat.le_refl _) hvalue
    simpa [Json.compactMembers, wordsMembers] using hcolon.quoted name
  | (name, value) :: next :: rest =>
    rw [PlainMembers] at hfields
    have hrest := Reads.compactMembers (next :: rest) hfields.2 hcs h
    have hcomma := Reads.token (c := ',') (t := .comma) rfl rfl (Nat.le_refl _) hrest
    have hvalue := Reads.compact value hfields.1
      (stops_cons rfl (by decide) (by decide) (by decide) _) hcomma
    have hcolon := Reads.token (c := ':') (t := .colon) rfl rfl (Nat.le_refl _) hvalue
    simpa [Json.compactMembers, wordsMembers] using hcolon.quoted name

end

/-! ## Members in order -/

lemma putMember_of_lt {name : String} {value : Json} {fields : List (String × Json)}
    (h : ∀ f ∈ fields, f.1 < name) : putMember name value fields = fields ++ [(name, value)] := by
  induction fields with
  | nil => rfl
  | cons f rest ih =>
    have hlt : f.1 < name := h f List.mem_cons_self
    rw [putMember, if_neg (String.lt_asymm hlt),
      if_neg fun heq => String.lt_irrefl name (by rwa [← heq] at hlt),
      ih fun g hg => h g (List.mem_cons_of_mem _ hg)]
    rfl

/-- Members in ascending order are an object as they stand. -/
lemma object_of_ascending {fields : List (String × Json)}
    (h : fields.Pairwise fun a b => a.1 < b.1) : object fields = .members fields := by
  have hfold : ∀ front rest : List (String × Json),
      (front ++ rest).Pairwise (fun a b => a.1 < b.1) →
        rest.foldl (fun acc f => putMember f.1 f.2 acc) front = front ++ rest := by
    intro front rest
    induction rest generalizing front with
    | nil => intro _; simp
    | cons f rest ih =>
      intro hascending
      have hlt : ∀ g ∈ front, g.1 < f.1 := fun g hg =>
        (List.pairwise_append.1 hascending).2.2 g hg f List.mem_cons_self
      rw [List.foldl_cons, putMember_of_lt hlt, ih, List.append_assoc]
      · rfl
      · rwa [List.append_assoc]
  rw [object, hfold [] fields h, List.nil_append]

/-! ## The machine -/

/-- The first item of an array is read like any value. -/
lemma run_firstItem (v : Json) (stack : List Frame) (ts : List Token) :
    run stack .firstItem (words v ++ ts) = run stack .value (words v ++ ts) := by
  match v with
  | .null | .boolean _ | .number _ | .string _ => simp [words, run]
  | .array [] | .array (_ :: _) => simp [words, run]
  | .members [] | .members ((_, _) :: _) => simp [words, run]

mutual

/-- The machine reads the words of a value as that value. -/
theorem run_words (v : Json) (hv : v.Plain) (stack : List Frame) (ts : List Token)
    (hdepth : stack.length + v.depth ≤ depthLimit) :
    run stack .value (words v ++ ts) = run stack (.afterValue v) ts := by
  match v with
  | .null | .boolean _ | .number _ | .string _ => simp [words, run]
  | .array [] =>
    have hroom : stack.length < depthLimit := by simp only [depth] at hdepth; omega
    simp [words, run, run.opened, hroom]
  | .array (item :: rest) =>
    simp only [Plain, PlainItems] at hv
    simp only [depth, depthItems] at hdepth
    have hroom : stack.length < depthLimit := by omega
    have hitem := run_words item hv.1 (.array [] :: stack)
      (wordsItems rest ++ .closeArray :: ts) (by rw [List.length_cons]; omega)
    have hrest := run_items rest hv.2 [] item stack ts (by omega)
    simp only [words, List.cons_append, List.append_assoc, List.nil_append]
    rw [run, run.opened, if_pos hroom, run_firstItem, hitem, hrest]
    rfl
  | .members [] =>
    have hroom : stack.length < depthLimit := by simp only [depth] at hdepth; omega
    simp [words, run, run.opened, hroom]
  | .members ((name, value) :: rest) =>
    simp only [Plain, PlainMembers] at hv
    simp only [depth, depthMembers] at hdepth
    have hroom : stack.length < depthLimit := by omega
    have hvalue := run_words value hv.2.1 (.object [] name :: stack)
      (wordsMembers rest ++ .closeObject :: ts) (by rw [List.length_cons]; omega)
    have hrest := run_members rest hv.2.2 [] name value stack ts (by omega)
    simp only [words, List.cons_append, List.append_assoc, List.nil_append]
    rw [run, run.opened, if_pos hroom, run, run, hvalue, hrest]
    simp [object_of_ascending hv.1]

theorem run_items (items : List Json) (hitems : PlainItems items) (front : List Json)
    (v : Json) (stack : List Frame) (ts : List Token)
    (hdepth : stack.length + 1 + depthItems items ≤ depthLimit) :
    run (.array front :: stack) (.afterValue v) (wordsItems items ++ .closeArray :: ts) =
      run stack (.afterValue (.array ((v :: front).reverse ++ items))) ts := by
  match items with
  | [] => simp [wordsItems, run]
  | item :: rest =>
    simp only [PlainItems] at hitems
    simp only [depthItems] at hdepth
    have hitem := run_words item hitems.1 (.array (v :: front) :: stack)
      (wordsItems rest ++ .closeArray :: ts) (by rw [List.length_cons]; omega)
    have hrest := run_items rest hitems.2 (v :: front) item stack ts (by omega)
    simp only [wordsItems, List.cons_append, List.append_assoc]
    rw [run, hitem, hrest]
    simp

theorem run_members (fields : List (String × Json)) (hfields : PlainMembers fields)
    (front : List (String × Json)) (name : String) (v : Json) (stack : List Frame)
    (ts : List Token) (hdepth : stack.length + 1 + depthMembers fields ≤ depthLimit) :
    run (.object front name :: stack) (.afterValue v)
        (wordsMembers fields ++ .closeObject :: ts) =
      run stack (.afterValue (Json.object (((name, v) :: front).reverse ++ fields))) ts := by
  match fields with
  | [] => simp [wordsMembers, run]
  | (name', value) :: rest =>
    simp only [PlainMembers] at hfields
    simp only [depthMembers] at hdepth
    have hvalue := run_words value hfields.1 (.object ((name, v) :: front) name' :: stack)
      (wordsMembers rest ++ .closeObject :: ts) (by rw [List.length_cons]; omega)
    have hrest := run_members rest hfields.2 ((name, v) :: front) name' value stack ts (by omega)
    simp only [wordsMembers, List.cons_append, List.append_assoc]
    rw [run, run, run, hvalue, hrest]
    simp

end

lemma parse?_of_reads {text : String} {v : Json} (hreads : Reads text.toList (words v))
    (hv : v.Plain) (hdepth : v.depth ≤ depthLimit) : parse? text = some v := by
  have hrun := run_words v hv [] [] (by simpa using hdepth)
  rw [List.append_nil] at hrun
  simp [parse?, tokens, hreads _ (Nat.le_refl _), hrun, run]

/-- **What is written is read as itself.** -/
theorem parse?_pretty (v : Json) (hv : v.Plain) (hdepth : v.depth ≤ depthLimit) :
    parse? v.pretty = some v := by
  have hreads := Reads.indented v 0 hv stops_nil reads_nil
  rw [List.append_nil, List.append_nil] at hreads
  exact parse?_of_reads hreads hv hdepth

/-- The compact form is read as itself, too. -/
theorem parse?_compact (v : Json) (hv : v.Plain) (hdepth : v.depth ≤ depthLimit) :
    parse? v.compact = some v := by
  have hreads := Reads.compact v hv stops_nil reads_nil
  rw [List.append_nil, List.append_nil] at hreads
  exact parse?_of_reads hreads hv hdepth

end StoreSync.Json
