import StoreSync.Text.CaseTable

/-!
# Text without regard to case

Two comparisons that ignore case are in use, and they differ.  `fold` lower-cases a whole text;
there the capital sigma becomes the final form `ς` where it ends a word.  `sameFolded` lower-cases
character by character, without a look at the neighbours.  Map keys use the first, look-ups by
comparison the second.  On ASCII text the first is the plain lower-casing of letters
(`fold_of_ascii`).
-/

namespace StoreSync.Text

/-! ## Characters -/

/-- The image of a code point under a run, if the run covers it. -/
def CaseRun.image? (r : CaseRun) (n : Nat) : Option Nat :=
  if r.first ≤ n ∧ n ≤ r.last ∧ (n - r.first) % r.step = 0 then some ((n : Int) + r.shift).toNat
  else none

def CharRange.covers (r : CharRange) (n : Nat) : Bool := r.first ≤ n && n ≤ r.last

/-- The small form of one character by itself.  Only `İ` has one of two characters. -/
def lowerChar (c : Char) : List Char :=
  if c.toNat < 128 then [c.toLower]
  else if c = 'İ' then ['i', '\u0307']
  else match lowerRuns.findSome? (·.image? c.toNat) with
    | some n => [Char.ofNat n]
    | none => [c]

/-- The capital form of one character, a sequence for ligatures and the like. -/
def upperChar (c : Char) : List Char :=
  if c.toNat < 128 then [c.toUpper]
  else match upperExpansions.lookup c.toNat with
    | some codes => codes.map Char.ofNat
    | none => match upperRuns.findSome? (·.image? c.toNat) with
      | some n => [Char.ofNat n]
      | none => [c]

def isCased (c : Char) : Bool :=
  if c.toNat < 128 then c.isAlpha else casedRanges.any (·.covers c.toNat)

/-- Marks and apostrophes: they neither start nor end a word. -/
def isCaseIgnorable (c : Char) : Bool :=
  if c.toNat < 128 then c = '\'' || c = '.' || c = ':' || c = '^' || c = '\x60'
  else caseIgnorableRanges.any (·.covers c.toNat)

/-! ## Whole texts -/

/-- Whether the first character that is not case-ignorable is a cased letter. -/
def startsCased (cs : List Char) : Bool :=
  match cs.dropWhile isCaseIgnorable with
  | [] => false
  | c :: _ => isCased c

/-- Whether a cased letter stands before the next character, past ignorable ones: the
state after `c`, from the state before it. -/
def casedAfter (before : Bool) (c : Char) : Bool :=
  if isCaseIgnorable c then before else isCased c

/-- Lower-casing from a given state on.  A capital sigma after a cased letter and not before one
takes its final form. -/
def foldFrom (before : Bool) : List Char → List Char
  | [] => []
  | c :: rest =>
    if c = 'Σ' then
      (if before && !startsCased rest then 'ς' else 'σ') :: foldFrom (casedAfter before c) rest
    else lowerChar c ++ foldFrom (casedAfter before c) rest

/-- The case-folded form of a text, used as its key. -/
def fold (s : String) : String := String.ofList (foldFrom false s.toList)

/-- Whether two texts agree when each character is lower-cased by itself. -/
def sameFolded (a b : String) : Bool :=
  a.toList.flatMap lowerChar == b.toList.flatMap lowerChar

/-- The text in capital letters. -/
def upper (s : String) : String := String.ofList (s.toList.flatMap upperChar)

/-- ASCII letters in lower case, all else unchanged. -/
def asciiLower (s : String) : String := String.ofList (s.toList.map Char.toLower)

/-- Whether two texts agree up to the case of ASCII letters. -/
def sameAsciiFolded (a b : String) : Bool := asciiLower a == asciiLower b

/-! ## ASCII text -/

/-- Whether all characters are ASCII. -/
def IsAscii (s : String) : Prop := ∀ c ∈ s.toList, c.toNat < 128

theorem lowerChar_of_ascii {c : Char} (h : c.toNat < 128) : lowerChar c = [c.toLower] := by
  simp [lowerChar, h]

theorem flatMap_lowerChar_of_ascii {cs : List Char} (h : ∀ c ∈ cs, c.toNat < 128) :
    cs.flatMap lowerChar = cs.map Char.toLower := by
  induction cs with
  | nil => rfl
  | cons c rest ih =>
    simp [lowerChar_of_ascii (h c List.mem_cons_self),
      ih fun d hd => h d (List.mem_cons_of_mem _ hd)]

theorem foldFrom_of_ascii {cs : List Char} (h : ∀ c ∈ cs, c.toNat < 128) (before : Bool) :
    foldFrom before cs = cs.map Char.toLower := by
  induction cs generalizing before with
  | nil => rfl
  | cons c rest ih =>
    have hc := h c List.mem_cons_self
    have hne : c ≠ 'Σ' := by rintro rfl; exact absurd hc (by decide)
    simp [foldFrom, hne, lowerChar_of_ascii hc, ih fun d hd => h d (List.mem_cons_of_mem _ hd)]

theorem fold_of_ascii {s : String} (h : IsAscii s) : fold s = asciiLower s := by
  simp [fold, asciiLower, foldFrom_of_ascii h]

@[simp] theorem sameFolded_self (a : String) : sameFolded a a = true := by simp [sameFolded]

theorem sameFolded_comm (a b : String) : sameFolded a b = sameFolded b a := by
  simp [sameFolded, Bool.beq_comm]

theorem sameFolded_trans {a b c : String} (h : sameFolded a b = true)
    (h' : sameFolded b c = true) : sameFolded a c = true := by
  simp only [sameFolded, beq_iff_eq] at *
  exact h.trans h'

end StoreSync.Text
