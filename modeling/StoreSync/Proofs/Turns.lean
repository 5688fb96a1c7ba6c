import Mathlib.Data.List.Infix
import Mathlib.Tactic.Lemma
import StoreSync.Script.Lexer

/-!
# What a turn of the lexer takes up

The lexer keeps the tokens of a script and their places, but not the characters that they are made
of.  `Lexer.turns` is the same walk with the characters: for every token what is skipped before it,
its spelling, and how many templates are open there (`Lexer.map_token_turns`).

`Lexer.took_of_step` says what one step can take up.  A text runs to its closing quote
(`Lexer.Closes`), a piece of a template to the back quote that closes it or to its next expression
(`Lexer.RunsTo`), and everything else is spelled without a quote or a backslash.
-/

namespace StoreSync.Script.Lexer

open StoreSync.Json (isDigit)
open StoreSync.Text (hexDigit?)

/-! ## Plain characters -/

/-- A character that is no quote and no backslash. -/
structure Plain (c : Char) : Prop where
  double : c ≠ '"'
  single : c ≠ '\''
  back : c ≠ '\x60'
  escape : c ≠ '\\'

instance (c : Char) : Decidable (Plain c) :=
  decidable_of_iff (c ≠ '"' ∧ c ≠ '\'' ∧ c ≠ '\x60' ∧ c ≠ '\\')
    ⟨fun ⟨h₁, h₂, h₃, h₄⟩ => ⟨h₁, h₂, h₃, h₄⟩, fun ⟨h₁, h₂, h₃, h₄⟩ => ⟨h₁, h₂, h₃, h₄⟩⟩

lemma plain_of (p : Char → Bool)
    (hp : p '"' = false ∧ p '\'' = false ∧ p '\x60' = false ∧ p '\\' = false) {c : Char}
    (h : p c = true) : Plain c := by
  have hne : ∀ {q : Char}, p q = false → c ≠ q := by
    rintro q hq rfl
    rw [hq] at h
    cases h
  exact ⟨hne hp.1, hne hp.2.1, hne hp.2.2.1, hne hp.2.2.2⟩

/-- Only plain characters are taken up between the two ends. -/
def PassesBy (cs rest : List Char) : Prop := ∃ used, cs = used ++ rest ∧ ∀ c ∈ used, Plain c

namespace PassesBy

variable {cs rest rest' : List Char} {c : Char}

lemma refl (cs : List Char) : PassesBy cs cs := ⟨[], rfl, by simp⟩

lemma trans (h : PassesBy cs rest) (h' : PassesBy rest rest') : PassesBy cs rest' := by
  obtain ⟨used, rfl, hused⟩ := h
  obtain ⟨used', rfl, hused'⟩ := h'
  refine ⟨used ++ used', (List.append_assoc ..).symm, fun c hc => ?_⟩
  exact (List.mem_append.1 hc).elim (hused c) (hused' c)

lemma cons (hc : Plain c) (h : PassesBy cs rest) : PassesBy (c :: cs) rest := by
  obtain ⟨used, rfl, hused⟩ := h
  exact ⟨c :: used, rfl, List.forall_mem_cons.2 ⟨hc, hused⟩⟩

lemma dropWhile {p : Char → Bool} (hp : ∀ c, p c = true → Plain c) (cs : List Char) :
    PassesBy cs (cs.dropWhile p) :=
  ⟨cs.takeWhile p, List.takeWhile_append_dropWhile.symm,
    fun c hc => hp c (List.all_eq_true.1 List.all_takeWhile c hc)⟩

end PassesBy

lemma drop_length_takeWhile (p : Char → Bool) (cs : List Char) :
    cs.drop (cs.takeWhile p).length = cs.dropWhile p := by
  have hsplit : cs.takeWhile p ++ cs.dropWhile p = cs := List.takeWhile_append_dropWhile
  calc cs.drop (cs.takeWhile p).length
      = (cs.takeWhile p ++ cs.dropWhile p).drop (cs.takeWhile p).length := by rw [hsplit]
    _ = cs.dropWhile p := List.drop_left

/-! ## Numbers -/

section Numbers

variable {cs rest ds : List Char}

lemma plain_of_isDigitOrSeparator {c : Char} (h : isDigitOrSeparator c = true) : Plain c :=
  plain_of _ (by decide) h

lemma passesBy_fractionPart (h : fractionPart cs = some (ds, rest)) : PassesBy cs rest := by
  unfold fractionPart at h
  split at h
  next tail =>
    split at h
    next => cases h
    next c rest' =>
      split at h
      next =>
        cases h
        exact .cons (by decide) (.dropWhile (fun _ => plain_of_isDigitOrSeparator) _)
      next =>
        split at h
        next => cases h
        next =>
          cases h
          exact .cons (by decide) (.refl _)
  next => cases h

lemma passesBy_exponentPart {e : Int} (h : exponentPart cs = some (e, rest)) :
    PassesBy cs rest := by
  unfold exponentPart at h
  split at h
  next tail =>
    split at h
    next negative ds hsign =>
      have htail : PassesBy tail ds := by
        split at hsign <;> cases hsign
        · exact .cons (by decide) (.refl _)
        · exact .cons (by decide) (.refl _)
        · exact .refl _
      refine .cons (by decide) (htail.trans ?_)
      split at h
      next =>
        split at h
        next =>
          cases h
          exact .dropWhile (fun _ => plain_of_isDigitOrSeparator) _
        next => cases h
      next => cases h
  next => cases h

lemma passesBy_decimal (negative : Bool) (cs : List Char) :
    PassesBy cs (readNumber.decimal negative cs).2 ∧
      ∀ w, (readNumber.decimal negative cs).1 ≠ .name w := by
  have hwhole : PassesBy cs (cs.dropWhile isDigitOrSeparator) :=
    .dropWhile (fun _ => plain_of_isDigitOrSeparator) _
  have hfraction : ∀ cs, PassesBy cs (((fractionPart cs).map (·.2)).getD cs) := by
    intro cs
    cases h : fractionPart cs with
    | none => exact .refl cs
    | some part => exact passesBy_fractionPart h
  have hexponent : ∀ cs, PassesBy cs (((exponentPart cs).map (·.2)).getD cs) := by
    intro cs
    cases h : exponentPart cs with
    | none => exact .refl cs
    | some part => exact passesBy_exponentPart h
  have hpasses := (hwhole.trans (hfraction _)).trans (hexponent _)
  unfold readNumber.decimal
  dsimp only
  split <;> split <;> exact ⟨hpasses, by simp⟩

lemma passesBy_readNumber (negative : Bool) (cs : List Char) :
    PassesBy cs (readNumber negative cs).2 ∧ ∀ w, (readNumber negative cs).1 ≠ .name w := by
  unfold readNumber
  split
  next b rest =>
    split
    next base hbase =>
      dsimp only
      rw [drop_length_takeWhile]
      have hb : Plain b := plain_of (fun c => (base? c).isSome) (by decide) (by simp [hbase])
      have hpasses : PassesBy ('0' :: b :: rest)
          (rest.dropWhile fun c => (hexDigit? c).isSome || c = '_') :=
        .cons (by decide) (.cons hb (.dropWhile (fun _ h => plain_of _ (by decide) h) _))
      split
      next =>
        split <;> exact ⟨hpasses, by simp⟩
      next => exact ⟨hpasses, by simp⟩
    next => exact passesBy_decimal negative _
  next => exact passesBy_decimal negative _

end Numbers

/-! ## Texts -/

section Texts

variable {q : Char} {cs rest acc : List Char} {p : Position} {piece : Piece}

/-- A text from behind its opening quote to its closing one. -/
inductive Closes (q : Char) : List Char → Prop
  | close : Closes q [q]
  | double {cs : List Char} (h : Closes q cs) : Closes q (q :: q :: cs)
  | escape {cs : List Char} (c : Char) (h : Closes q cs) : Closes q ('\\' :: c :: cs)
  | other {cs : List Char} {c : Char} (hq : c ≠ q) (hescape : c ≠ '\\') (h : Closes q cs) :
      Closes q (c :: cs)

lemma Closes.append {ds : List Char} (hds : ∀ d ∈ ds, d ≠ q ∧ d ≠ '\\') (h : Closes q cs) :
    Closes q (ds ++ cs) := by
  induction ds with
  | nil => exact h
  | cons d rest ih =>
    obtain ⟨⟨hq, hescape⟩, hrest⟩ := List.forall_mem_cons.1 hds
    exact .other hq hescape (ih hrest)

lemma exists_of_hexCode {count acc n : Nat} (h : hexCode count acc cs = some (n, rest)) :
    ∃ ds, cs = ds ++ rest ∧ ∀ d ∈ ds, Plain d := by
  induction count generalizing acc cs with
  | zero =>
    simp only [hexCode, Option.some.injEq, Prod.mk.injEq] at h
    exact ⟨[], h.2, by simp⟩
  | succ count ih =>
    cases cs with
    | nil => simp [hexCode] at h
    | cons c tail =>
      simp only [hexCode] at h
      split at h
      next d hd =>
        obtain ⟨ds, rfl, hds⟩ := ih h
        have hc : Plain c := plain_of (fun c => (hexDigit? c).isSome) (by decide) (by simp [hd])
        exact ⟨c :: ds, rfl, List.forall_mem_cons.2 ⟨hc, hds⟩⟩
      next => cases h

lemma exists_of_escape? {c : Char} (h : escape? cs = some (c, rest)) :
    ∃ d ds, cs = d :: (ds ++ rest) ∧ ∀ d ∈ ds, Plain d := by
  have hcode : ∀ {d : Char} {tail : List Char} {count : Nat},
      escape?.code count tail = some (c, rest) →
      ∃ e ds, d :: tail = e :: (ds ++ rest) ∧ ∀ d ∈ ds, Plain d := by
    intro d tail count h
    unfold escape?.code at h
    split at h
    next hhex =>
      split at h
      next =>
        cases h
        obtain ⟨ds, rfl, hds⟩ := exists_of_hexCode hhex
        exact ⟨d, ds, rfl, hds⟩
      next => cases h
    next => cases h
  unfold escape? at h
  split at h
  next => cases h
  next d tail =>
    split at h
    case h_8 => exact hcode h
    case h_9 => exact hcode h
    case h_10 => exact hcode h
    case h_11 => cases h
    all_goals
      cases h
      exact ⟨_, [], rfl, by simp⟩

lemma exists_of_readQuoted {fuel : Nat} (hq : q = '"' ∨ q = '\'')
    (h : readQuoted q fuel p acc cs = some piece) :
    ∃ used, cs = used ++ piece.rest ∧ Closes q used := by
  have hplain : ∀ {d : Char}, Plain d → d ≠ q ∧ d ≠ '\\' := by
    rintro d hd
    rcases hq with rfl | rfl
    · exact ⟨hd.double, hd.escape⟩
    · exact ⟨hd.single, hd.escape⟩
  induction fuel generalizing p acc cs with
  | zero => simp [readQuoted] at h
  | succ fuel ih =>
    unfold readQuoted at h
    split at h
    next => cases h
    next tail =>
      obtain ⟨used, hused, hcloses⟩ := ih h
      have hspaces : ∀ d ∈ tail.takeWhile (· = ' '), d ≠ q ∧ d ≠ '\\' := by
        intro d hd
        have hd : d = ' ' := by simpa using List.all_eq_true.1 List.all_takeWhile d hd
        subst hd
        exact hplain (by decide)
      refine ⟨'\\' :: '\n' :: (tail.takeWhile (· = ' ') ++ used), ?_,
        .escape '\n' (.append hspaces hcloses)⟩
      calc '\\' :: '\n' :: tail
          = '\\' :: '\n' :: (tail.takeWhile (· = ' ') ++ tail.dropWhile (· = ' ')) := by
            rw [List.takeWhile_append_dropWhile]
        _ = _ := by simp [hused]
    next tail _ =>
      split at h
      next c tail' hescape =>
        obtain ⟨used, rfl, hcloses⟩ := ih h
        obtain ⟨d, ds, rfl, hds⟩ := exists_of_escape? hescape
        exact ⟨'\\' :: d :: (ds ++ used), by simp,
          .escape d (.append (fun d hd => hplain (hds d hd)) hcloses)⟩
      next => cases h
    next c tail _ hescape =>
      split at h
      next hc =>
        subst hc
        split at h
        next hdouble =>
          obtain ⟨used, hused, hcloses⟩ := ih h
          obtain ⟨tail', rfl⟩ := List.head?_eq_some_iff.1 hdouble
          rw [List.tail_cons] at hused
          exact ⟨c :: c :: used, by rw [hused]; rfl, .double hcloses⟩
        next =>
          cases h
          exact ⟨[c], rfl, .close⟩
      next hc =>
        split at h
        next => cases h
        next =>
          obtain ⟨used, rfl, hcloses⟩ := ih h
          exact ⟨c :: used, rfl, .other hc hescape hcloses⟩

/-- The rest of a piece of a template: up to its closing back quote, or to an expression that it
opens. -/
inductive RunsTo : Bool → List Char → Prop
  | close : RunsTo false ['\x60']
  | expression : RunsTo true ['$', '\x7b']
  | double {opens : Bool} {cs : List Char} (h : RunsTo opens cs) :
      RunsTo opens ('\x60' :: '\x60' :: cs)
  | other {opens : Bool} {c : Char} {cs : List Char} (hc : c ≠ '\x60') (h : RunsTo opens cs) :
      RunsTo opens (c :: cs)

lemma exists_of_readTemplate (h : readTemplate p acc cs = some piece) :
    ∃ used, cs = used ++ piece.rest ∧ RunsTo piece.opensExpression used := by
  fun_induction readTemplate p acc cs with
  | case1 => cases h
  | case2 p acc rest ih =>
    obtain ⟨used, rfl, hruns⟩ := ih h
    exact ⟨_, rfl, .double hruns⟩
  | case3 =>
    cases h
    exact ⟨_, rfl, .close⟩
  | case4 =>
    cases h
    exact ⟨_, rfl, .expression⟩
  | case5 p acc c rest _ hback _ ih =>
    obtain ⟨used, rfl, hruns⟩ := ih h
    exact ⟨c :: used, rfl, .other hback hruns⟩

end Texts

/-! ## Steps -/

/-- What one step can take up in front of the rest, and how it leaves the open templates. -/
inductive Took (templates : List Nat) (cs : List Char) : Step → Prop
  /-- A token without quotes and backslashes; a name goes as far as its characters. -/
  | plain {used rest : List Char} {token : Token} {st : State} (hcs : cs = used ++ rest)
      (hused : ∀ c ∈ used, Plain c) (htemplates : st.templates.length = templates.length)
      (hname : ∀ w, token = .name w → used = w.toList ∧ (∀ c ∈ used, isNameChar c = true) ∧
        ∀ c ∈ rest.head?, isNameChar c = false) :
      Took templates cs ⟨token, rest, st⟩
  | text {q : Char} {used rest : List Char} {token : Token} {st : State}
      (hcs : cs = q :: used ++ rest) (hq : q = '"' ∨ q = '\'') (hused : Closes q used)
      (htemplates : st.templates = templates)
      (htoken : (∃ text, token = .string text) ∨ ∃ c, token = .char c) :
      Took templates cs ⟨token, rest, st⟩
  /-- The first piece of a template, which may be all of it. -/
  | template {opens : Bool} {used rest : List Char} {text : String} {st : State}
      (hcs : cs = '\x60' :: used ++ rest) (hused : RunsTo opens used)
      (htemplates : st.templates = if opens then 0 :: templates else templates) :
      Took templates cs ⟨if opens then .templateStart text else .string text, rest, st⟩
  /-- A piece of a template behind an expression. -/
  | piece {opens : Bool} {outer : List Nat} {used rest : List Char} {text : String} {st : State}
      (hcs : cs = '\x7d' :: used ++ rest) (hused : RunsTo opens used)
      (houter : templates = 0 :: outer)
      (htemplates : st.templates = if opens then 0 :: outer else outer) :
      Took templates cs ⟨if opens then .templateMiddle text else .templateEnd text, rest, st⟩
  | bad {st : State} : Took templates cs ⟨.bad, [], st⟩

section Steps

variable {st : State} {cs rest : List Char}

lemma took_of_passesBy {token : Token} {st' : State} (h : PassesBy cs rest)
    (htemplates : st'.templates.length = st.templates.length) (hname : ∀ w, token ≠ .name w) :
    Took st.templates cs ⟨token, rest, st'⟩ := by
  obtain ⟨used, hcs, hused⟩ := h
  exact .plain hcs hused htemplates fun w hw => absurd hw (hname w)

lemma length_countBrace (st : State) (f : Nat → Nat) :
    (countBrace st f).templates.length = st.templates.length := by
  unfold countBrace
  split <;> simp_all

lemma took_of_readQuoted {q : Char} {fuel : Nat} {p : Position} {tail acc : List Char}
    {piece : Piece} {token : Token} {st' : State} (hq : q = '"' ∨ q = '\'')
    (h : readQuoted q fuel p acc tail = some piece) (htemplates : st'.templates = st.templates)
    (htoken : (∃ text, token = .string text) ∨ ∃ c, token = .char c) :
    Took st.templates (q :: tail) ⟨token, piece.rest, st'⟩ := by
  obtain ⟨used, rfl, hused⟩ := exists_of_readQuoted hq h
  exact .text rfl hq hused htemplates htoken

lemma templateStep_cases (st : State) (first : Bool) (p : Position) (cs : List Char) :
    templateStep st first p cs = bad st ∨
      ∃ opens used rest text, ∃ st' : State, cs = used ++ rest ∧ RunsTo opens used ∧
        templateStep st first p cs =
          ⟨if opens then if first then .templateStart text else .templateMiddle text
            else if first then .string text else .templateEnd text, rest, st'⟩ ∧
        st'.templates =
          let outer := if first then st.templates else st.templates.tail
          if opens then 0 :: outer else outer := by
  unfold templateStep
  split
  next => exact Or.inl rfl
  next piece hpiece =>
    obtain ⟨used, hcs, hused⟩ := exists_of_readTemplate hpiece
    dsimp only
    split
    next => exact Or.inl rfl
    next =>
      refine Or.inr ⟨piece.opensExpression, used, piece.rest, String.ofList piece.text, ?_⟩
      split
      next hopens =>
        refine ⟨_, hcs, hused, rfl, ?_⟩
        cases first <;> rfl
      next hopens =>
        refine ⟨_, hcs, hused, rfl, ?_⟩
        cases first <;> rfl

/-- A line break behind the opening back quote is taken up with the template. -/
lemma took_of_templateStep {pre : List Char} (hcs : cs = '\x60' :: (pre ++ rest))
    (hpre : ∀ c ∈ pre, c ≠ '\x60') (p : Position) :
    Took st.templates cs (templateStep st true p rest) := by
  rcases templateStep_cases st true p rest with hbad | ⟨opens, used, rest', text, st', hrest, hused,
      hstep, htemplates⟩
  · rw [hbad]
    exact .bad
  · rw [hstep]
    have hruns : RunsTo opens (pre ++ used) := by
      clear hcs
      induction pre with
      | nil => exact hused
      | cons c tail ih =>
        obtain ⟨hc, htail⟩ := List.forall_mem_cons.1 hpre
        exact .other hc (ih htail)
    exact .template (by rw [hcs, hrest]; simp) hruns htemplates

lemma eq_of_wordToken {word : List Char} {w : String} (h : wordToken word = .name w) :
    word = w.toList := by
  unfold wordToken at h
  dsimp only at h
  split at h
  next => cases h
  next =>
    split at h
    next =>
      split at h <;> cases h
      simp
    next => cases h

lemma took_word (st : State) (cs : List Char) :
    Took st.templates cs (took st (wordToken (cs.takeWhile isNameChar)) cs
      (cs.drop (cs.takeWhile isNameChar).length)) := by
  have hword : ∀ c ∈ cs.takeWhile isNameChar, isNameChar c = true :=
    List.all_eq_true.1 List.all_takeWhile
  rw [drop_length_takeWhile]
  have hplain : ∀ c ∈ cs.takeWhile isNameChar, Plain c :=
    fun c hc => plain_of _ (by decide) (hword c hc)
  refine .plain List.takeWhile_append_dropWhile.symm hplain rfl
    fun w hw => ⟨eq_of_wordToken hw, hword, fun c hc => ?_⟩
  have hhead := List.head?_dropWhile_not isNameChar cs
  rw [hc] at hhead
  exact hhead

lemma passesBy_of_longest? {words : List String} {s : String}
    (hwords : (words.all fun w => w.toList.all fun c => decide (Plain c)) = true)
    (h : longest? words cs = some (s, rest)) : PassesBy cs rest := by
  obtain ⟨w, hw, h⟩ := List.exists_of_findSome?_eq_some h
  split at h
  next hprefix =>
    cases h
    have hplain := List.all_eq_true.1 (List.all_eq_true.1 hwords s hw)
    exact ⟨s.toList, List.prefix_append_drop (List.isPrefixOf_iff_prefix.1 hprefix),
      fun c hc => of_decide_eq_true (hplain c hc)⟩
  next => cases h

/-- What a step takes up. -/
theorem took_of_step (st : State) (cs : List Char) : Took st.templates cs (step st cs) := by
  unfold step
  split
  next => exact .bad
  next tail =>
    split
    next piece hpiece =>
      split
      next => exact took_of_readQuoted (Or.inl rfl) hpiece rfl (Or.inl ⟨_, rfl⟩)
      next => exact .bad
    next => exact .bad
  next tail =>
    split
    next c rest p _ hpiece => exact took_of_readQuoted (Or.inr rfl) hpiece rfl (Or.inr ⟨c, rfl⟩)
    next => exact .bad
  next tail =>
    have hcs : '\x60' :: '\n' :: tail = '\x60' :: (['\n'] ++ tail) := rfl
    exact took_of_templateStep hcs (List.forall_mem_singleton.2 (by decide)) _
  next tail _ =>
    have hcs : '\x60' :: tail = '\x60' :: ([] ++ tail) := rfl
    exact took_of_templateStep hcs (by simp) _
  next tail =>
    split
    next outer houter =>
      rcases templateStep_cases st false (st.position.after '\x7d') tail with hbad | ⟨opens, used,
        rest, text, st', hrest, hused, hstep, htemplates⟩
      · rw [hbad]
        exact .bad
      · rw [hstep]
        exact .piece (by rw [hrest, List.cons_append]) hused houter
          (by rw [htemplates, houter]; rfl)
    next =>
      exact took_of_passesBy (.cons (by decide) (.refl _)) (length_countBrace st _) (by simp)
  next c tail _ _ _ _ _ =>
    split
    next =>
      obtain ⟨hpasses, hname⟩ := passesBy_readNumber false (c :: tail)
      exact took_of_passesBy hpasses rfl hname
    next =>
      split
      next hsign =>
        obtain ⟨hpasses, hname⟩ := passesBy_readNumber true tail
        exact took_of_passesBy (.cons (by rw [hsign.1]; decide) hpasses) rfl hname
      next =>
        split
        next => exact took_word st (c :: tail)
        next =>
          split
          next hin =>
            have htail : PassesBy tail (tail.drop 2) :=
              ⟨"in".toList, List.prefix_append_drop (List.isPrefixOf_iff_prefix.1 hin.2.1),
                List.forall_mem_cons.2 ⟨by decide, List.forall_mem_singleton.2 (by decide)⟩⟩
            exact took_of_passesBy (.cons (by rw [hin.1]; decide) htail) rfl (by simp)
          next =>
            split
            next => exact .bad
            next =>
              split
              next s rest hlongest =>
                refine took_of_passesBy (passesBy_of_longest? (by decide) hlongest) ?_ (by simp)
                dsimp only
                split
                next => exact length_countBrace st _
                next => rfl
              next => exact .bad

end Steps

/-! ## Turns -/

/-- One turn of the lexer. -/
structure Turn where
  /-- The blanks and comments before the token. -/
  skipped : List Char
  /-- The characters of the token. -/
  spelling : List Char
  token : Token
  /-- Number of templates that are open before the token. -/
  nesting : Nat
deriving DecidableEq, Repr

def Turn.text (t : Turn) : List Char := t.skipped ++ t.spelling

/-- What stands in a text before an end of it. -/
def front (cs rest : List Char) : List Char := cs.take (cs.length - rest.length)

@[simp] lemma front_append (used rest : List Char) : front (used ++ rest) rest = used := by
  simp [front]

/-- The turns of `lexemesWithin`. -/
def turnsWithin : Nat → State → List Char → List Turn
  | 0, _, _ => []
  | fuel + 1, st, cs =>
    match skipBlank (cs.length + 1) st.position cs with
    | (_, []) => []
    | (p, found) =>
      let s := step { st with position := p } found
      ⟨front cs found, front found s.rest, s.token, st.templates.length⟩ ::
        turnsWithin fuel s.state s.rest

/-- The turns in which a script is cut into tokens. -/
def turns (textLimit : Nat) (script : String) : List Turn :=
  let cs := script.toList
  turnsWithin (cs.length + 1) ⟨.start, true, [], textLimit⟩ cs

lemma map_token_turnsWithin (fuel : Nat) (st : State) (cs : List Char) :
    (turnsWithin fuel st cs).map (·.token) = (lexemesWithin fuel st cs).1.map (·.token) := by
  induction fuel generalizing st cs with
  | zero => rfl
  | succ fuel ih =>
    unfold turnsWithin lexemesWithin
    rcases skipBlank (cs.length + 1) st.position cs with ⟨p, found⟩
    cases found with
    | nil => rfl
    | cons c rest => simp [ih]

/-- The tokens of the turns are those of the script. -/
theorem map_token_turns (textLimit : Nat) (script : String) :
    (turns textLimit script).map (·.token) = (lexemes textLimit script).1.map (·.token) :=
  map_token_turnsWithin ..

lemma skipComment_suffix (fuel depth : Nat) (p : Position) (cs : List Char) :
    (skipBlank.skipComment fuel depth p cs).2 <:+ cs := by
  fun_induction skipBlank.skipComment fuel depth p cs with
  | case1 => exact List.suffix_refl _
  | case2 => exact List.suffix_refl _
  | case3 _ _ _ _ ih => exact ih.trans ((List.suffix_cons _ _).trans (List.suffix_cons _ _))
  | case4 _ _ _ _ ih => exact ih.trans ((List.suffix_cons _ _).trans (List.suffix_cons _ _))
  | case5 _ _ _ _ _ _ _ ih => exact ih.trans (List.suffix_cons _ _)
  | case6 => exact List.suffix_refl _

lemma skipBlank_suffix (fuel : Nat) (p : Position) (cs : List Char) :
    (skipBlank fuel p cs).2 <:+ cs := by
  fun_induction skipBlank fuel p cs with
  | case1 => exact List.suffix_refl _
  | case2 _ _ _ _ ih =>
    exact ih.trans ((List.drop_suffix _ _).trans
      ((List.suffix_cons _ _).trans (List.suffix_cons _ _)))
  | case3 fuel p rest p' rest' hcomment ih =>
    have hsuffix := skipComment_suffix fuel 1 ((p.after '/').after '*') rest
    rw [hcomment] at hsuffix
    exact ih.trans (hsuffix.trans ((List.suffix_cons _ _).trans (List.suffix_cons _ _)))
  | case4 _ _ _ _ _ _ _ ih => exact ih.trans (List.suffix_cons _ _)
  | case5 => exact List.suffix_refl _
  | case6 => exact List.suffix_refl _

lemma turnsWithin_nil (fuel : Nat) (st : State) : turnsWithin fuel st [] = [] := by
  cases fuel <;> rfl

lemma Took.split {templates : List Nat} {cs : List Char} {next : Step}
    (h : Took templates cs next) : cs = front cs next.rest ++ next.rest := by
  cases h with
  | plain hcs => rw [hcs, front_append]
  | text hcs => rw [hcs, front_append]
  | template hcs => rw [hcs, front_append]
  | piece hcs => rw [hcs, front_append]
  | bad => simp [front]

/-- A name is spelled as it is, and goes as far as it can. -/
lemma Took.name {templates : List Nat} {spelling : List Char} {next : Step} {w : String}
    (h : Took templates (spelling ++ next.rest) next) (hname : next.token = .name w) :
    spelling = w.toList ∧ (∀ c ∈ spelling, isNameChar c = true) ∧
      ∀ c ∈ next.rest.head?, isNameChar c = false := by
  cases h with
  | plain hcs _ _ hplain =>
    obtain rfl := List.append_cancel_right hcs
    exact hplain w hname
  | text _ _ _ _ htoken => rcases htoken with ⟨text, rfl⟩ | ⟨c, rfl⟩ <;> cases hname
  | @template opens => cases opens <;> cases hname
  | @piece opens => cases opens <;> cases hname
  | bad => cases hname

/-- How a turn is taken, and where the next one starts. -/
structure Turn.Begins (t : Turn) (st : State) (cs : List Char) (next : Step) : Prop where
  text : cs = t.text ++ next.rest
  token : t.token = next.token
  nesting : t.nesting = st.templates.length
  took : Took st.templates (t.spelling ++ next.rest) next

theorem exists_begins {fuel : Nat} {st : State} {cs : List Char} {t : Turn} {ts : List Turn}
    (h : turnsWithin fuel st cs = t :: ts) :
    ∃ fuel' next, t.Begins st cs next ∧ ts = turnsWithin fuel' next.state next.rest := by
  cases fuel with
  | zero => cases h
  | succ fuel =>
    unfold turnsWithin at h
    obtain ⟨skipped, hskipped⟩ := skipBlank_suffix (cs.length + 1) st.position cs
    split at h
    next => cases h
    next p found _ hfound =>
      rw [hfound] at hskipped
      obtain ⟨rfl, rfl⟩ := List.cons.inj h
      have htook := took_of_step { st with position := p } found
      have hsplit := htook.split
      refine ⟨fuel, step { st with position := p } found, ⟨?_, rfl, rfl, ?_⟩, rfl⟩
      · rw [Turn.text, List.append_assoc, ← hsplit]
        simp [← hskipped]
      · rw [← hsplit]
        exact htook

end StoreSync.Script.Lexer
