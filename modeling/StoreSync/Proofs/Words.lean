import StoreSync.Proofs.Mentions

/-!
# Words outside of literals

A name is looked for in the words of an expression, and not in its literals.  `Expression.Reads`
says how a text falls into pieces when it is read from left to right: a quote opens a literal, which
ends at the next equal quote that no backslash escapes, or else runs to the end of the text; words
are as long as they can be.  Every text falls into pieces in exactly one way
(`Expression.reads_iff`).

The scan keeps of all this the word that it is in, the quote that is open and whether a character is
escaped.  `Expression.Reads.mentionsFrom_eq` takes it through the pieces one by one, and
`Expression.mentions_iff_exists_word` is what it finds: a word that is the name, or the name with an
underscore behind it.
-/

namespace StoreSync.Expression

variable {name cs rest body w : List Char} {ps : List Piece} {q c : Char}

/-! ## Pieces of a text -/

inductive Piece where
  | word (letters : List Char)
  | literal (quote : Char) (body : List Char)
  /-- A literal that the text leaves open. -/
  | unclosed (quote : Char) (body : List Char)
  /-- A character by itself, neither of a word nor of a literal. -/
  | mark (c : Char)
deriving DecidableEq

/-- What a literal can hold before it ends: a backslash only with the character that it escapes, and
the quote only as such a character. -/
inductive Quoted (q : Char) : List Char → Prop
  | nil : Quoted q []
  | escaped {rest : List Char} (c : Char) (h : Quoted q rest) : Quoted q ('\\' :: c :: rest)
  | plain {c : Char} {rest : List Char} (hescape : c ≠ '\\') (hquote : c ≠ q) (h : Quoted q rest) :
      Quoted q (c :: rest)

/-- What a literal can hold that does not end.  The last backslash may have nothing to escape. -/
inductive Unended (q : Char) : List Char → Prop
  | nil : Unended q []
  | hanging : Unended q ['\\']
  | escaped {rest : List Char} (c : Char) (h : Unended q rest) : Unended q ('\\' :: c :: rest)
  | plain {c : Char} {rest : List Char} (hescape : c ≠ '\\') (hquote : c ≠ q)
      (h : Unended q rest) : Unended q (c :: rest)

/-- The pieces into which a text falls. -/
inductive Reads : List Char → List Piece → Prop
  | nil : Reads [] []
  | word {c : Char} {w rest : List Char} {ps : List Piece}
      (hall : ∀ d ∈ c :: w, isWordChar d = true)
      (hend : ∀ d ∈ rest.head?, isWordChar d = false) (h : Reads rest ps) :
      Reads (c :: (w ++ rest)) (.word (c :: w) :: ps)
  | literal {q : Char} {body rest : List Char} {ps : List Piece} (hq : isQuote q = true)
      (hbody : Quoted q body) (h : Reads rest ps) :
      Reads (q :: (body ++ q :: rest)) (.literal q body :: ps)
  | unclosed {q : Char} {body : List Char} (hq : isQuote q = true) (hbody : Unended q body) :
      Reads (q :: body) [.unclosed q body]
  | mark {c : Char} {rest : List Char} {ps : List Piece} (hword : isWordChar c = false)
      (hquote : isQuote c = false) (h : Reads rest ps) : Reads (c :: rest) (.mark c :: ps)

/-! ## Literals -/

/-- What a literal holds and what comes behind it, if it ends. -/
def literal? (q : Char) : List Char → Option (List Char × List Char)
  | [] => none
  | c :: rest =>
    if c = '\\' then
      match rest with
      | [] => none
      | d :: rest => (literal? q rest).map fun r => ('\\' :: d :: r.1, r.2)
    else if c = q then some ([], rest)
    else (literal? q rest).map fun r => (c :: r.1, r.2)

lemma ne_escape_of_isQuote (h : isQuote q = true) : q ≠ '\\' := by
  rcases isQuote_iff.1 h with rfl | rfl | rfl <;> decide

lemma literal?_quote (hq : q ≠ '\\') (rest : List Char) :
    literal? q (q :: rest) = some ([], rest) := by
  cases rest <;> simp [literal?, hq]

lemma literal?_plain (hescape : c ≠ '\\') (hquote : c ≠ q) (rest : List Char) :
    literal? q (c :: rest) = (literal? q rest).map fun r => (c :: r.1, r.2) := by
  cases rest <;> simp [literal?, hescape, hquote]

lemma literal?_of_quoted (hq : q ≠ '\\') (h : Quoted q body) (rest : List Char) :
    literal? q (body ++ q :: rest) = some (body, rest) := by
  induction h with
  | nil => exact literal?_quote hq rest
  | escaped c _ ih => simp [literal?, ih]
  | plain hescape hquote _ ih => rw [List.cons_append, literal?_plain hescape hquote, ih]; rfl

lemma literal?_of_unended (h : Unended q cs) : literal? q cs = none := by
  induction h with
  | nil => rfl
  | hanging => rfl
  | escaped c _ ih => simp [literal?, ih]
  | plain hescape hquote _ ih => rw [literal?_plain hescape hquote, ih]; rfl

lemma quoted_of_literal? (h : literal? q cs = some (body, rest)) :
    cs = body ++ q :: rest ∧ Quoted q body := by
  fun_induction literal? q cs generalizing body with
  | case1 => cases h
  | case2 => cases h
  | case3 c cs ih =>
    obtain ⟨⟨body, rest⟩, hends, heq⟩ := Option.map_eq_some_iff.1 h
    obtain ⟨rfl, rfl⟩ := Prod.mk.inj heq
    obtain ⟨rfl, hbody⟩ := ih hends
    exact ⟨rfl, hbody.escaped c⟩
  | case4 =>
    obtain ⟨rfl, rfl⟩ := Prod.mk.inj (Option.some.inj h)
    exact ⟨rfl, .nil⟩
  | case5 c cs hescape hquote ih =>
    obtain ⟨⟨body, rest⟩, hends, heq⟩ := Option.map_eq_some_iff.1 h
    obtain ⟨rfl, rfl⟩ := Prod.mk.inj heq
    obtain ⟨rfl, hbody⟩ := ih hends
    exact ⟨rfl, hbody.plain hescape hquote⟩

lemma unended_of_literal? (h : literal? q cs = none) : Unended q cs := by
  fun_induction literal? q cs with
  | case1 => exact .nil
  | case2 => exact .hanging
  | case3 c cs ih => exact (ih (Option.map_eq_none_iff.1 h)).escaped c
  | case4 => cases h
  | case5 c cs hescape hquote ih => exact (ih (Option.map_eq_none_iff.1 h)).plain hescape hquote

lemma length_of_literal? (h : literal? q cs = some (body, rest)) : rest.length < cs.length := by
  obtain ⟨rfl, -⟩ := quoted_of_literal? h
  simp
  omega

/-! ## A text falls into pieces in one way -/

/-- The pieces of a text, from left to right. -/
def pieces : List Char → List Piece
  | [] => []
  | c :: rest =>
    if isWordChar c then
      .word (c :: rest.takeWhile isWordChar) :: pieces (rest.dropWhile isWordChar)
    else if isQuote c then
      match _h : literal? c rest with
      | some (body, behind) => .literal c body :: pieces behind
      | none => [.unclosed c rest]
    else .mark c :: pieces rest
termination_by cs => cs.length
decreasing_by
  · exact Nat.lt_succ_of_le (List.dropWhile_suffix _).length_le
  · exact Nat.lt_succ_of_lt (length_of_literal? _h)
  · exact Nat.lt_succ_self _

lemma reads_pieces (cs : List Char) : Reads cs (pieces cs) := by
  fun_induction pieces cs with
  | case1 => exact .nil
  | case2 c rest hword ih =>
    have hall : ∀ d ∈ c :: rest.takeWhile isWordChar, isWordChar d = true :=
      List.forall_mem_cons.2 ⟨hword, List.all_eq_true.1 List.all_takeWhile⟩
    have hend : ∀ d ∈ (rest.dropWhile isWordChar).head?, isWordChar d = false := by
      intro d hd
      have hstop := List.head?_dropWhile_not isWordChar rest
      rwa [Option.mem_def.1 hd] at hstop
    have hword := Reads.word hall hend ih
    rwa [List.takeWhile_append_dropWhile] at hword
  | case3 c rest hword hquote body behind hends ih =>
    obtain ⟨rfl, hbody⟩ := quoted_of_literal? hends
    exact .literal hquote hbody ih
  | case4 c rest hword hquote hends => exact .unclosed hquote (unended_of_literal? hends)
  | case5 c rest hword hquote ih =>
    exact .mark (Bool.eq_false_of_not_eq_true hword) (Bool.eq_false_of_not_eq_true hquote) ih

/-- A word goes as far as its characters do. -/
lemma takeWhile_word (hall : ∀ d ∈ w, isWordChar d = true)
    (hend : ∀ d ∈ rest.head?, isWordChar d = false) :
    (w ++ rest).takeWhile isWordChar = w ∧ (w ++ rest).dropWhile isWordChar = rest := by
  rw [List.takeWhile_append_of_pos hall, List.dropWhile_append_of_pos hall]
  cases rest with
  | nil => simp
  | cons c rest => simp [hend c rfl]

lemma Reads.eq_pieces (h : Reads cs ps) : ps = pieces cs := by
  induction h with
  | nil => rw [pieces]
  | word hall hend _ ih =>
    obtain ⟨hword, hall⟩ := List.forall_mem_cons.1 hall
    obtain ⟨htake, hdrop⟩ := takeWhile_word hall hend
    rw [pieces, if_pos hword, htake, hdrop, ih]
  | literal hq hbody _ ih =>
    have hends := literal?_of_quoted (ne_escape_of_isQuote hq) hbody
    rw [pieces, not_isWordChar_of_isQuote hq, if_neg Bool.false_ne_true, if_pos hq]
    split
    next hsome =>
      rw [hends] at hsome
      cases hsome
      rw [ih]
    next hnone => simp [hends] at hnone
  | unclosed hq hbody =>
    rw [pieces, not_isWordChar_of_isQuote hq, if_neg Bool.false_ne_true, if_pos hq]
    split
    next hsome => simp [literal?_of_unended hbody] at hsome
    next => rfl
  | mark hword hquote _ ih => rw [pieces, hword, hquote, ih]; rfl

/-- Every text falls into pieces in exactly one way. -/
lemma reads_iff : Reads cs ps ↔ ps = pieces cs :=
  ⟨Reads.eq_pieces, fun h => h ▸ reads_pieces cs⟩

/-! ## The scan over the pieces -/

lemma derivesFrom_iff :
    derivesFrom name w = true ↔ w = name ∨ ∃ rest, w = name ++ '_' :: rest := by
  rw [derivesFrom, Bool.and_eq_true, List.isPrefixOf_iff_prefix]
  constructor
  · rintro ⟨⟨rest, rfl⟩, hrest⟩
    rw [List.drop_left] at hrest
    cases rest with
    | nil => exact Or.inl (List.append_nil _)
    | cons c rest => exact Or.inr ⟨rest, by simpa using hrest⟩
  · rintro (rfl | ⟨rest, rfl⟩)
    · exact ⟨List.prefix_rfl, by simp⟩
    · exact ⟨List.prefix_append _ _, by simp⟩

/-- Whether a piece is a word that derives from the name. -/
def Piece.derives (name : List Char) : Piece → Bool
  | .word w => derivesFrom name w
  | _ => false

lemma mentionsFrom_quoted (h : Quoted q body) (rest : List Char) :
    mentionsFrom name (.literal q false) (body ++ rest) =
      mentionsFrom name (.literal q false) rest := by
  induction h with
  | nil => rfl
  | escaped c _ ih => simp [mentionsFrom, ih]
  | plain hescape hquote _ ih => simp [mentionsFrom, hescape, hquote, ih]

lemma mentionsFrom_unended (h : Unended q cs) :
    mentionsFrom name (.literal q false) cs = false := by
  induction h with
  | nil => rfl
  | hanging => rfl
  | escaped c _ ih => simpa [mentionsFrom] using ih
  | plain hescape hquote _ ih => simpa [mentionsFrom, hescape, hquote] using ih

lemma derivesFrom_nil (hname : name ≠ []) : derivesFrom name [] = false := by
  rw [← Bool.not_eq_true, derivesFrom_iff]
  rintro (h | ⟨rest, h⟩)
  · exact hname h.symm
  · simp at h

/-- A word is looked at when it ends, and the scan goes on as from the start. -/
lemma mentionsFrom_word_append (hname : name ≠ []) (hall : ∀ d ∈ w, isWordChar d = true)
    (hend : ∀ d ∈ rest.head?, isWordChar d = false) :
    mentionsFrom name (.word []) (w ++ rest) =
      (derivesFrom name w || mentionsFrom name (.word []) rest) := by
  have hwithin : ∀ before, mentionsFrom name (.word before) (w ++ rest) =
      mentionsFrom name (.word (w.reverse ++ before)) rest := by
    induction w with
    | nil => intro before; rfl
    | cons c w ih =>
      obtain ⟨hc, hw⟩ := List.forall_mem_cons.1 hall
      intro before
      simp [mentionsFrom, hc, ih hw]
  rw [hwithin]
  cases rest with
  | nil => simp [mentionsFrom, derivesFrom_nil hname]
  | cons c rest => simp [mentionsFrom, hend c rfl, derivesFrom_nil hname]

/-- A quote that is not within a word or a literal begins a literal. -/
lemma mentionsFrom_open (hname : name ≠ []) (hq : isQuote q = true) (cs : List Char) :
    mentionsFrom name (.word []) (q :: cs) = mentionsFrom name (.literal q false) cs := by
  simp [mentionsFrom, not_isWordChar_of_isQuote hq, hq, derivesFrom_nil hname]

/-- The scan sees the words of a text one by one, and nothing of its literals. -/
lemma Reads.mentionsFrom_eq (hname : name ≠ []) (h : Reads cs ps) :
    mentionsFrom name (.word []) cs = ps.any (·.derives name) := by
  induction h with
  | nil => exact derivesFrom_nil hname
  | word hall hend _ ih =>
    rw [← List.cons_append, mentionsFrom_word_append hname hall hend, ih]
    rfl
  | @literal q body rest _ hq hbody _ ih =>
    have hclose : mentionsFrom name (.literal q false) (q :: rest) =
        mentionsFrom name (.word []) rest := by
      simp [mentionsFrom, ne_escape_of_isQuote hq]
    rw [mentionsFrom_open hname hq, mentionsFrom_quoted hbody, hclose, ih]
    rfl
  | unclosed hq hbody =>
    rw [mentionsFrom_open hname hq, mentionsFrom_unended hbody]
    rfl
  | mark hword hquote _ ih =>
    simp [mentionsFrom, hword, hquote, derivesFrom_nil hname, ih, Piece.derives]

/-- **A name is mentioned exactly by a word outside of literals.**  However long the text, it falls
into pieces in one way, and the scan finds the name if and only if one of the words among them is
the name or begins with the name and an underscore. -/
theorem mentions_iff_exists_word {name : String} (hname : name ≠ "") (text : String) :
    (∃! ps, Reads text.toList ps) ∧ ∀ ps, Reads text.toList ps →
      (mentions text name = true ↔
        ∃ w, .word w ∈ ps ∧ (w = name.toList ∨ ∃ rest, w = name.toList ++ '_' :: rest)) := by
  refine ⟨⟨pieces text.toList, reads_iff.2 rfl, fun _ => reads_iff.1⟩, fun ps h => ?_⟩
  have hletters : name.toList ≠ [] := fun hnil => hname (String.toList_eq_nil_iff.1 hnil)
  rw [mentions, h.mentionsFrom_eq hletters, List.any_eq_true]
  constructor
  · rintro ⟨p, hp, hderives⟩
    cases p with
    | word w => exact ⟨w, hp, derivesFrom_iff.1 hderives⟩
    | _ => cases hderives
  · rintro ⟨w, hw, hderives⟩
    exact ⟨_, hw, derivesFrom_iff.2 hderives⟩

/-- The door stands in a literal with an escaped quote, in a word that goes on without an
underscore, and behind a quote that is never closed.  Only `door_2` counts. -/
def doorbell : String := "bell == 'door\\'s door' || doors + door_2 \"door"

theorem mentions_iff_of_doorbell :
    "door" ≠ "" ∧ Reads doorbell.toList (pieces doorbell.toList) ∧
      (pieces doorbell.toList).filter (fun p => !(p matches .mark _)) =
        [.word "bell".toList, .literal '\'' "door\\'s door".toList, .word "doors".toList,
          .word "door_2".toList, .unclosed '"' "door".toList] ∧
      mentions doorbell "door" = true ∧
      ∃ w, .word w ∈ pieces doorbell.toList ∧
        (w = "door".toList ∨ ∃ rest, w = "door".toList ++ '_' :: rest) := by
  have hname : "door" ≠ "" := by decide
  have hreads := reads_pieces doorbell.toList
  have hmentions : mentions doorbell "door" = true := by decide +kernel
  exact ⟨hname, hreads, by decide +kernel, hmentions,
    ((mentions_iff_exists_word hname doorbell).2 _ hreads).1 hmentions⟩

end StoreSync.Expression
