import StoreSync.Expression.Table
import StoreSync.Proofs.Reports
import StoreSync.Proofs.Stores
import StoreSync.Proofs.Turns

/-!
# Names that are not missed

A clean pass fetches the destination record only if the condition for deletions mentions it, and
whether it does is decided by a scan of the text for the name.  The scan knows three quotes and a
backslash; the language also has comments, in which quotes and backslashes mean nothing, back-quoted
texts, in which a backslash is a character like others, and expressions within such texts.  An
occurrence in evaluated code can be missed for each of these, and the condition is then decided
without the record.

`Expression.Occurrence.Visible` says what has to be so: that the occurrence is in no template, that
comments before it close every quote they open, and that there is no backslash in the templates
before it, nor a back quote in their expressions.  Up to there the scan is in step with the lexer
(`Expression.InStep.turns`), so that a visible occurrence is found
(`Expression.Occurrence.Visible.mentions`).  Every question of a clean pass is then about a record
that the destination has just answered (`Pass.asks_of_visible`).
-/

namespace StoreSync

namespace Expression

variable {name xs ys cs : List Char} {s s' : Scan} {q c : Char}

/-! ## The scan for a name -/

/-- Where the scan stands behind a character. -/
def Scan.next : Scan → Char → Scan
  | .word w, c =>
    if isWordChar c then .word (c :: w) else if isQuote c then .literal c false else .word []
  | .literal q true, _ => .literal q false
  | .literal q false, c =>
    if c = '\\' then .literal q true else if c = q then .word [] else .literal q false

def Scan.after (s : Scan) (cs : List Char) : Scan := cs.foldl Scan.next s

/-- The quote of the literal in which the scan stands, and whether a backslash stands before the
next character. -/
def Scan.literal? : Scan → Option (Char × Bool)
  | .word _ => none
  | .literal q escaped => some (q, escaped)

lemma Scan.after_append (s : Scan) (xs ys : List Char) :
    s.after (xs ++ ys) = (s.after xs).after ys :=
  List.foldl_append

lemma Scan.after_cons (s : Scan) (c : Char) (cs : List Char) :
    s.after (c :: cs) = (s.next c).after cs := rfl

lemma isQuote_iff : isQuote c = true ↔ c = '"' ∨ c = '\'' ∨ c = '\x60' := by
  simp [isQuote, or_assoc]

lemma not_isWordChar_of_isQuote (h : isQuote c = true) : isWordChar c = false := by
  rcases isQuote_iff.1 h with rfl | rfl | rfl <;> rfl

lemma Scan.literal?_next (h : s.literal? = s'.literal?) :
    (s.next c).literal? = (s'.next c).literal? := by
  cases s with
  | word w =>
    cases s' with
    | word w' =>
      simp only [Scan.next]
      split
      · rfl
      · split <;> rfl
    | literal q escaped => cases h
  | literal q escaped =>
    cases s' with
    | word w' => cases h
    | literal q' escaped' =>
      cases h
      rfl

lemma Scan.literal?_after (h : s.literal? = s'.literal?) (cs : List Char) :
    (s.after cs).literal? = (s'.after cs).literal? := by
  induction cs generalizing s s' with
  | nil => exact h
  | cons c rest ih => exact ih (literal?_next h)

/-- What is found behind some characters is found. -/
lemma mentionsFrom_append (h : mentionsFrom name (s.after xs) ys = true) :
    mentionsFrom name s (xs ++ ys) = true := by
  induction xs generalizing s with
  | nil => exact h
  | cons c rest ih =>
    have hrest : mentionsFrom name (s.next c) (rest ++ ys) = true := ih h
    match s with
    | .word w =>
      rw [List.cons_append, mentionsFrom]
      simp only [Scan.next] at hrest
      split at hrest
      next hc => rwa [if_pos hc]
      next hc =>
        rw [if_neg hc]
        split at hrest
        next hquote => rw [if_pos hquote, hrest, Bool.or_true]
        next hquote => rw [if_neg hquote, hrest, Bool.or_true]
    | .literal q true =>
      rw [List.cons_append, mentionsFrom]
      exact hrest
    | .literal q false =>
      rw [List.cons_append, mentionsFrom, if_neg Bool.false_ne_true]
      simp only [Scan.next] at hrest
      split at hrest
      next hc => rwa [if_pos hc]
      next hc =>
        rw [if_neg hc]
        split at hrest
        next hclose => rwa [if_pos hclose]
        next hclose => rwa [if_neg hclose]

/-- A word that starts here and derives from the name is found when it ends. -/
lemma mentionsFrom_word (hxs : ∀ c ∈ xs, isWordChar c = true)
    (hys : ∀ c ∈ ys.head?, isWordChar c = false) (h : derivesFrom name xs = true) :
    mentionsFrom name (.word []) (xs ++ ys) = true := by
  have hafter : ∀ w, (Scan.word w).after xs = .word (xs.reverse ++ w) := by
    clear h
    induction xs with
    | nil => intro w; rfl
    | cons c rest ih =>
      obtain ⟨hc, hrest⟩ := List.forall_mem_cons.1 hxs
      intro w
      have hnext : (Scan.word w).next c = .word (c :: w) := by simp [Scan.next, hc]
      calc (Scan.word w).after (c :: rest)
          = (Scan.word (c :: w)).after rest := by rw [← hnext]; rfl
        _ = .word ((c :: rest).reverse ++ w) := by simp [ih hrest]
  refine mentionsFrom_append ?_
  rw [hafter, List.append_nil]
  cases ys with
  | nil => simpa [mentionsFrom] using h
  | cons c rest =>
    have hc : isWordChar c = false := hys c rfl
    simp [mentionsFrom, hc, h]

lemma Scan.next_eq_word (hc : isWordChar c = false) (h : (s.next c).literal? = none) :
    s.next c = .word [] := by
  match s with
  | .word w =>
    have hnext : (Scan.word w).next c = if isQuote c then .literal c false else .word [] := by
      simp [next, hc]
    rw [hnext] at h ⊢
    split at h
    next => cases h
    next hquote => rw [if_neg hquote]
  | .literal q true => cases h
  | .literal q false =>
    simp only [next] at h ⊢
    split at h
    next => cases h
    next hescape =>
      split at h
      next hclose => rw [if_neg hescape, if_pos hclose]
      next => cases h

/-- Outside of literals and behind a character that is not of a word, no word has begun. -/
lemma Scan.after_eq_word (hlast : ∀ c ∈ cs.getLast?, isWordChar c = false)
    (h : ((Scan.word []).after cs).literal? = none) : (Scan.word []).after cs = .word [] := by
  rcases List.eq_nil_or_concat cs with rfl | ⟨front, c, rfl⟩
  · rfl
  · rw [List.concat_eq_append, after_append] at h ⊢
    exact next_eq_word (hlast c (by simp)) h

lemma Scan.exists_word_of_literal? (h : s.literal? = none) : ∃ w, s = .word w := by
  cases s with
  | word w => exact ⟨w, rfl⟩
  | literal q escaped => cases h

/-! ## The scan over what the lexer takes up -/

open Script.Lexer (Plain Closes RunsTo Turn)

lemma Scan.literal?_after_plain (w : List Char) (hcs : ∀ c ∈ cs, Plain c) :
    ((Scan.word w).after cs).literal? = none := by
  induction cs generalizing w with
  | nil => rfl
  | cons c rest ih =>
    obtain ⟨hc, hrest⟩ := List.forall_mem_cons.1 hcs
    have hquote : isQuote c = false := by simp [isQuote, hc.double, hc.single, hc.back]
    have hnext : ∃ w', (Scan.word w).next c = .word w' := by
      simp only [next, hquote]
      split <;> exact ⟨_, rfl⟩
    obtain ⟨w', hnext⟩ := hnext
    rw [after_cons, hnext]
    exact ih w' hrest

lemma Scan.next_within (hclose : c ≠ q) (hescape : c ≠ '\\') :
    (Scan.literal q false).next c = .literal q false := by
  simp [next, hclose, hescape]

lemma Scan.after_within (hclose : q ∉ cs) (hescape : '\\' ∉ cs) :
    (Scan.literal q false).after cs = .literal q false := by
  induction cs with
  | nil => rfl
  | cons c rest ih =>
    simp only [List.mem_cons, not_or] at hclose hescape
    rw [after_cons, next_within (Ne.symm hclose.1) (Ne.symm hescape.1)]
    exact ih hclose.2 hescape.2

lemma Scan.next_close (hq : isQuote q = true) : (Scan.literal q false).next q = .word [] := by
  rcases isQuote_iff.1 hq with rfl | rfl | rfl <;> rfl

lemma Scan.next_open (hq : isQuote q = true) (w : List Char) :
    (Scan.word w).next q = .literal q false := by
  simp [next, not_isWordChar_of_isQuote hq, hq]

/-- The scan leaves a text where the lexer does. -/
lemma Scan.after_closes (hq : isQuote q = true) (h : Closes q cs) :
    (Scan.literal q false).after cs = .word [] := by
  induction h with
  | close => exact next_close hq
  | double _ ih =>
    rw [after_cons, next_close hq, after_cons, next_open hq]
    exact ih
  | escape c _ ih => exact ih
  | other hclose hescape _ ih =>
    rw [after_cons, next_within hclose hescape]
    exact ih

/-- Without a backslash the scan leaves a piece of a template where the lexer does. -/
lemma Scan.after_runsTo {opens : Bool} (h : RunsTo opens cs) (hescape : '\\' ∉ cs) :
    (Scan.literal '\x60' false).after cs =
      if opens then .literal '\x60' false else .word [] := by
  induction h with
  | close => rfl
  | expression => rfl
  | double _ ih => exact ih fun hmem => hescape (by simp [hmem])
  | @other _ c _ hc _ ih =>
    rw [after_cons, next_within hc fun heq => hescape (by simp [heq])]
    exact ih fun hmem => hescape (by simp [hmem])

/-! ## In step with the lexer -/

/-- Where the scan should stand: outside of literals in code, and in one that a back quote opened
within the expression of a template. -/
inductive InStep : List Nat → Scan → Prop
  | code (w : List Char) : InStep [] (.word w)
  | template (n : Nat) : InStep [n] (.literal '\x60' false)

/-- Whether a token is a piece of a template behind an expression. -/
def resumes : Script.Token → Bool
  | .templateMiddle _ | .templateEnd _ => true
  | _ => false

/-- A turn of the lexer that the scan follows.  Comments close every quote that they open, pieces of
a template have no backslash, and the expressions within are free of backslashes and back quotes. -/
structure Clear (t : Turn) : Prop where
  comments : t.nesting = 0 → ((Scan.word []).after t.skipped).literal? = none
  pieces : t.nesting = 0 → t.spelling.head? = some '\x60' → '\\' ∉ t.spelling
  expressions : t.nesting ≠ 0 → '\\' ∉ t.text ∧ '\x60' ∉ t.skipped ∧
    (resumes t.token = false → '\x60' ∉ t.spelling)

instance (t : Turn) : Decidable (Clear t) :=
  decidable_of_iff ((t.nesting = 0 → ((Scan.word []).after t.skipped).literal? = none) ∧
      (t.nesting = 0 → t.spelling.head? = some '\x60' → '\\' ∉ t.spelling) ∧
      (t.nesting ≠ 0 → '\\' ∉ t.text ∧ '\x60' ∉ t.skipped ∧
        (resumes t.token = false → '\x60' ∉ t.spelling)))
    ⟨fun ⟨hcomments, hpieces, hexpressions⟩ => ⟨hcomments, hpieces, hexpressions⟩,
      fun h => ⟨h.comments, h.pieces, h.expressions⟩⟩

open Script Script.Lexer

section Turns

variable {st : State} {templates : List Nat} {found : List Char} {t : Turn} {next : Lexer.Step}

/-- What is skipped leaves the scan where it stands. -/
lemma InStep.skip (h : InStep templates s) (hclear : Clear t)
    (hnesting : t.nesting = templates.length) : InStep templates (s.after t.skipped) := by
  cases h with
  | code w =>
    have hsame : (Scan.word w).literal? = (Scan.word []).literal? := rfl
    have hliteral := (Scan.literal?_after hsame t.skipped).trans (hclear.comments hnesting)
    obtain ⟨w', hw'⟩ := Scan.exists_word_of_literal? hliteral
    rw [hw']
    exact .code w'
  | template n =>
    obtain ⟨hescape, hback, -⟩ := hclear.expressions (by simp [hnesting])
    rw [Scan.after_within hback fun hmem => hescape (List.mem_append_left _ hmem)]
    exact .template n

/-- In code, the scan passes plain characters and texts, and goes into a template with the lexer. -/
lemma inStep_code (w : List Char) (hclear : Clear t) (hnesting : t.nesting = 0)
    (htook : Took [] (t.spelling ++ next.rest) next) (hmore : next.rest ≠ []) :
    InStep next.state.templates ((Scan.word w).after t.spelling) := by
  cases htook with
  | @plain used rest token st hcs hused htemplates _ =>
    obtain hspelling := List.append_cancel_right hcs
    obtain ⟨w', hw'⟩ := Scan.exists_word_of_literal? (Scan.literal?_after_plain w hused)
    rw [hspelling, hw', List.eq_nil_of_length_eq_zero htemplates]
    exact .code w'
  | @text q used rest token st hcs hq hused htemplates _ =>
    obtain hspelling := List.append_cancel_right hcs
    have hquote : isQuote q = true := by rcases hq with rfl | rfl <;> rfl
    rw [hspelling, htemplates, Scan.after_cons, Scan.next_open hquote,
      Scan.after_closes hquote hused]
    exact .code []
  | @template opens used rest text st hcs hused htemplates =>
    obtain hspelling := List.append_cancel_right hcs
    have hescape : '\\' ∉ used := fun hmem =>
      hclear.pieces hnesting (by rw [hspelling]; rfl) (by rw [hspelling]; exact .tail _ hmem)
    rw [hspelling, htemplates, Scan.after_cons, Scan.next_open rfl,
      Scan.after_runsTo hused hescape]
    cases opens with
    | true => exact .template 0
    | false => exact .code []
  | piece _ _ houter _ => cases houter
  | bad => exact absurd rfl hmore

/-- In an expression of a template, the scan stays in its literal until the lexer ends it. -/
lemma inStep_template (n : Nat) (hclear : Clear t) (hnesting : t.nesting ≠ 0)
    (htoken : t.token = next.token) (htook : Took [n] (t.spelling ++ next.rest) next)
    (hmore : next.rest ≠ []) :
    InStep next.state.templates ((Scan.literal '\x60' false).after t.spelling) := by
  obtain ⟨hescape, -, hback⟩ := hclear.expressions hnesting
  replace hescape : '\\' ∉ t.spelling := fun hmem => hescape (List.mem_append_right _ hmem)
  cases htook with
  | @plain used rest token st hcs hused htemplates _ =>
    obtain hspelling := List.append_cancel_right hcs
    obtain ⟨m, hm⟩ := List.length_eq_one_iff.1 htemplates
    rw [hspelling, hm, Scan.after_within (fun hmem => (hused _ hmem).back rfl)
      fun hmem => (hused _ hmem).escape rfl]
    exact .template m
  | text _ _ _ htemplates htext =>
    have hresumes : resumes t.token = false := by
      rw [htoken]
      rcases htext with ⟨text, rfl⟩ | ⟨c, rfl⟩ <;> rfl
    rw [htemplates, Scan.after_within (hback hresumes) hescape]
    exact .template n
  | @template opens used rest text st hcs _ _ =>
    obtain hspelling := List.append_cancel_right hcs
    have hresumes : resumes t.token = false := by
      rw [htoken]
      cases opens <;> rfl
    exact absurd (by rw [hspelling]; exact .head _) (hback hresumes)
  | @piece opens outer used rest text st hcs hused houter htemplates =>
    obtain hspelling := List.append_cancel_right hcs
    obtain rfl : [] = outer := (List.cons.inj houter).2
    have hescape : '\\' ∉ used := fun hmem => hescape (by rw [hspelling]; exact .tail _ hmem)
    rw [hspelling, htemplates, Scan.after_cons, Scan.next_within (by decide) (by decide),
      Scan.after_runsTo hused hescape]
    cases opens with
    | true => exact .template 0
    | false => exact .code []
  | bad => exact absurd rfl hmore

/-- A clear turn keeps the scan in step. -/
lemma InStep.turn (h : InStep st.templates s) (hclear : Clear t) (hbegins : t.Begins st found next)
    (hmore : next.rest ≠ []) : InStep next.state.templates (s.after t.text) := by
  have hskip := h.skip hclear hbegins.nesting
  have htook := hbegins.took
  have hnesting := hbegins.nesting
  rw [Turn.text, Scan.after_append]
  generalize s.after t.skipped = s' at hskip ⊢
  generalize st.templates = templates at *
  cases hskip with
  | code w => exact inStep_code w hclear hnesting htook hmore
  | template n => exact inStep_template n hclear (by simp [hnesting]) hbegins.token htook hmore

/-- Clear turns keep the scan in step. -/
lemma InStep.turns {fuel : Nat} {before after : List Turn} (h : InStep st.templates s)
    (hturns : turnsWithin fuel st cs = before ++ t :: after) (hclear : ∀ u ∈ before, Clear u) :
    ∃ fuel' st' cs', cs = before.flatMap Turn.text ++ cs' ∧
      turnsWithin fuel' st' cs' = t :: after ∧
      InStep st'.templates (s.after (before.flatMap Turn.text)) := by
  induction before generalizing fuel st cs s with
  | nil => exact ⟨fuel, st, cs, rfl, hturns, h⟩
  | cons u rest ih =>
    obtain ⟨hu, hrest⟩ := List.forall_mem_cons.1 hclear
    obtain ⟨fuel', next, hbegins, hnext⟩ := exists_begins hturns
    have hmore : next.rest ≠ [] := by
      intro hnil
      rw [hnil, turnsWithin_nil] at hnext
      simp at hnext
    obtain ⟨fuel'', st', cs', hcs', hturns', hin⟩ :=
      ih (h.turn hu hbegins hmore) hnext.symm hrest
    refine ⟨fuel'', st', cs', ?_, hturns', ?_⟩
    · rw [hbegins.text, hcs', List.flatMap_cons, List.append_assoc]
    · rw [List.flatMap_cons, Scan.after_append]
      exact hin

end Turns

/-! ## Occurrences of a name -/

lemma derivesFrom_of {name word : String}
    (h : word = name ∨ ∃ rest, word = name ++ "_" ++ rest) :
    derivesFrom name.toList word.toList = true := by
  rcases h with rfl | ⟨rest, rfl⟩
  · simp [derivesFrom]
  · simp [derivesFrom, List.append_assoc]

/-- An occurrence of a name, or of one that derives from it, among the tokens of a script. -/
structure Occurrence (limit : Nat) (text name : String) where
  before : List Turn
  turn : Turn
  after : List Turn
  word : String
  turns : Lexer.turns limit text = before ++ turn :: after
  token : turn.token = .name word
  derives : word = name ∨ ∃ rest, word = name ++ "_" ++ rest

/-- What occurs is one of the tokens that the lexer reads. -/
lemma Occurrence.mem_lexemes {limit : Nat} {text name : String} (o : Occurrence limit text name) :
    .name o.word ∈ (lexemes limit text).1.map (·.token) := by
  rw [← map_token_turns, o.turns]
  refine List.mem_map.2 ⟨o.turn, ?_, o.token⟩
  exact List.mem_append_right _ List.mem_cons_self

/-- An occurrence in code outside of templates, up to which the scan can follow.  What a number runs
into is no name of its own to the scan, and to no reader of scripts an expression. -/
structure Occurrence.Visible {limit : Nat} {text name : String} (o : Occurrence limit text name) :
    Prop where
  code : o.turn.nesting = 0
  clear : ∀ u ∈ o.before ++ [o.turn], Clear u
  apart : ∀ c ∈ (o.before.flatMap Turn.text ++ o.turn.skipped).getLast?, isWordChar c = false

/-- An expression mentions a name that visibly occurs in it. -/
theorem Occurrence.Visible.mentions {limit : Nat} {text name : String}
    {o : Occurrence limit text name} (h : o.Visible) : mentions text name = true := by
  have hturn : Clear o.turn := h.clear _ (by simp)
  obtain ⟨fuel, st, cs, htext, hturns, hin⟩ := (InStep.code []).turns (o.turns : turnsWithin _
    ⟨.start, true, [], limit⟩ _ = _) fun u hu => h.clear u (List.mem_append_left _ hu)
  obtain ⟨fuel', next, hbegins, -⟩ := exists_begins hturns
  have hskip := hin.skip hturn hbegins.nesting
  have htemplates : st.templates = [] :=
    List.eq_nil_of_length_eq_zero (hbegins.nesting.symm.trans h.code)
  rw [htemplates, ← Scan.after_append] at hskip
  have houtside :
      ((Scan.word []).after (o.before.flatMap Turn.text ++ o.turn.skipped)).literal? = none := by
    generalize (Scan.word []).after _ = s at hskip
    cases hskip
    rfl
  obtain ⟨hspelling, hword, hrest⟩ := hbegins.took.name (hbegins.token.symm.trans o.token)
  have hsplit : text.toList =
      (o.before.flatMap Turn.text ++ o.turn.skipped) ++ (o.turn.spelling ++ next.rest) := by
    rw [htext, hbegins.text, Turn.text]
    simp only [List.append_assoc]
  rw [Expression.mentions, hsplit]
  refine mentionsFrom_append ?_
  rw [Scan.after_eq_word h.apart houtside]
  refine mentionsFrom_word hword hrest ?_
  rw [hspelling]
  exact derivesFrom_of o.derives

/-- One occurrence for each of the reasons is missed. -/
example : ∀ text ∈ ["/* the entry's uid */ destination", "`$\x7bdestination\x7d`",
      "`\\` + destination", "`$\x7b\"`\"\x7d` + destination"],
    .name "destination" ∈ (lexemes 0 text).1.map (·.token) ∧
      mentions text "destination" = false := by
  decide +kernel

end Expression

/-! ## What a clean pass asks -/

lemma Asked.calls_bind_pure {α β : Type} (x : Asked α) (f : α → β) :
    (x >>= fun a => pure (f a)).calls = x.calls := by
  show (x.andThen _).calls = x.calls
  unfold andThen
  split
  · exact List.append_nil _
  · rfl

section Deletions

open Expression (mentions Occurrence)

variable {σ : Type} {t : Task σ} {text : String} {now : Nat}

namespace Task

/-- The condition for deletions is asked about a record that the destination answers. -/
def AsksAbout (t : Task σ) (text : String) (stores : σ) (c : EvaluatorCall) : Prop :=
  ∃ (p : Pivot) (d : Entity), (t.destination.answerFetch p stores).1 = .ok (some d) ∧
    c = .bool text (.ofDestination (some d))

lemma calls_planClean (hneeds : t.reconciler.deleteNeedsDestination = true)
    (hcondition : t.config.policy.conditions.delete = .expression text) (p : Pivot)
    (d : Option Entity) : (t.planClean p d).calls =
      d.toList.map fun d => .bool text (.ofDestination (some d)) := by
  have hallowed : ∀ b, (t.reconciler.isAllowed .delete b).calls = [.bool text b] := by
    intro b
    show (t.config.policy.conditions.delete.evaluate _ b).calls = _
    rw [hcondition]
    rfl
  cases d with
  | none =>
    simp only [planClean, hneeds]
    rfl
  | some d =>
    show (t.planClean p (some d)).calls = [.bool text (.ofDestination (some d))]
    simp only [planClean, hneeds, Reconciler.planDelete, Asked.calls_bind_pure, hallowed]

lemma calls_takeUp (now : Nat) (j : Job) (plan : Asked (Option PlannedChange)) (l : Ledger)
    (w : World σ) : (t.takeUp now j plan l w).2.2.calls = w.calls ++ plan.calls := by
  unfold takeUp
  dsimp only
  split
  · rfl
  · rfl
  · split <;> rfl

lemma answer_of_checkDestination {p : Pivot} {answer : Except StoreError (Option Entity)}
    {d : Entity} (h : t.checkDestination p answer = .ok (some d)) : answer = .ok (some d) := by
  unfold checkDestination at h
  split at h
  next => cases h
  next =>
    split at h
    next => rw [Except.ok.inj h]
    next => cases h
  next => cases h

/-- A step of a unit that deletes asks about a record that the destination answers to it. -/
lemma asks_of_unitStep (hneeds : t.reconciler.deleteNeedsDestination = true)
    (hcondition : t.config.policy.conditions.delete = .expression text) (now : Nat) (j : Job)
    (l : Ledger) (w : World σ) :
    ∃ asked, (t.unitStep true now j l w).2.2.calls = w.calls ++ asked ∧
      ∀ c ∈ asked, t.AsksAbout text w.stores c := by
  have hnothing : ∀ {w' : World σ}, w'.calls = w.calls →
      ∃ asked, w'.calls = w.calls ++ asked ∧ ∀ c ∈ asked, t.AsksAbout text w.stores c :=
    fun h => ⟨[], by rw [h, List.append_nil], by simp⟩
  cases hphase : j.phase with
  | waiting =>
    simp only [unitStep, hphase, world_enter]
    exact hnothing rfl
  | admitted | counted | lost | ended =>
    simp only [unitStep, hphase]
    exact hnothing rfl
  | sourceAsked =>
    simp only [unitStep, hphase, onSource, hneeds, if_true]
    split
    · exact hnothing rfl
    · split <;> exact hnothing rfl
  | destinationAsked known =>
    simp only [unitStep, hphase, onDestination, if_true]
    split
    next => exact hnothing rfl
    next d hd =>
      rw [calls_takeUp, calls_planClean hneeds hcondition]
      refine ⟨_, rfl, fun c hc => ?_⟩
      obtain ⟨d', hd', rfl⟩ := List.mem_map.1 hc
      obtain rfl : d = some d' := Option.mem_toList.1 hd'
      exact ⟨j.pivot, d', answer_of_checkDestination hd, rfl⟩
  | applying c =>
    simp only [unitStep, hphase, carryOut]
    split <;> exact hnothing rfl

end Task

namespace Pass

lemma Act.asks {p : Pass} {w : World σ} {events : List Event} {z : Pass × World σ}
    (h : Act t now p w events z) (hclean : p.isClean = true)
    (hneeds : t.reconciler.deleteNeedsDestination = true)
    (hcondition : t.config.policy.conditions.delete = .expression text) :
    ∃ asked, z.2.calls = w.calls ++ asked ∧ ∀ c ∈ asked, t.AsksAbout text w.stores c := by
  cases h with
  | @go k j j' l' w' _ hstep =>
    have hasks := Task.asks_of_unitStep hneeds hcondition now j p.ledger w
    rw [hclean] at hstep
    rwa [hstep] at hasks
  | _ => exact ⟨[], (List.append_nil _).symm, by simp⟩

lemma Run.isClean {permits : Nat → Pass → Prop} {x y : Pass × World σ} (h : Run t permits x y)
    (hclean : x.1.isClean = true) : y.1.isClean = true := by
  refine h.keeps (I := fun y => y.1.isClean = true) hclean fun {y z now} hy _ hturn => ?_
  obtain ⟨events, hhappens⟩ := hturn.exists_happens
  exact (act_of_happens hhappens).isClean.trans hy

/-- **A record that a condition visibly names is fetched before the condition is decided.**  If the
destination visibly occurs in the condition for deletions, as one of the tokens that the lexer
reads, then the scan finds it, and in every run of a clean pass, with any adapters and any schedule,
each turn asks the evaluator about nothing but records that the destination answers to it at that
turn. -/
theorem asks_of_visible {limit : Nat} {o : Occurrence limit text "destination"} (h : o.Visible)
    (hcondition : t.config.policy.conditions.delete = .expression text)
    (hreferences : t.evaluator.references = mentions) :
    .name o.word ∈ (Script.Lexer.lexemes limit text).1.map (·.token) ∧
    mentions text "destination" = true ∧ t.reconciler.deleteNeedsDestination = true ∧
      ∀ {permits : Nat → Pass → Prop} {now : Nat} {x y z : Pass × World σ},
        x.1.isClean = true → Run t permits x y → Turn t now y z →
          ∃ asked, z.2.calls = y.2.calls ++ asked ∧
            ∀ c ∈ asked, t.AsksAbout text y.2.stores c := by
  have hmentions := h.mentions
  have hneeds : t.reconciler.deleteNeedsDestination = true := by
    simp only [Reconciler.deleteNeedsDestination, Task.reconciler, hcondition,
      Condition.references, hreferences]
    exact hmentions
  refine ⟨o.mem_lexemes, hmentions, hneeds, fun hclean hrun hturn => ?_⟩
  obtain ⟨events, hhappens⟩ := hturn.exists_happens
  exact (act_of_happens hhappens).asks (hrun.isClean hclean) hneeds hcondition

/-! ### Badges that are taken back

The condition names the badge behind a comment with quotes and a template with an expression. -/

def badgeCondition : String :=
  "/* \"7\" stays */ `$\x7b7\x7d` != destination.badge"

def personnel : MemoryStore := .new "staff" "badge"

def badgeDesk : MemoryStore :=
  (MemoryStore.new "badges" "badge").insertAll
    [(Entity.putAll (.named "badge=4") [("badge", [.string "4"])], ⟨0⟩)]

def takingBack : Task (MemoryStore × MemoryStore) :=
  ⟨{ TaskConfig.new "badges" with
      policy := { Policy.empty with
        conditions := { Conditions.always with delete := .expression badgeCondition } } },
    (MemoryStore.adapter "staff" true).first, (MemoryStore.adapter "badges" true).second,
    .ofTable [(badgeCondition, .boolean true)]⟩

def badgeOccurrence : Expression.Occurrence 0 badgeCondition "destination" where
  before := (Script.Lexer.turns 0 badgeCondition).take 4
  turn := ⟨[' '], "destination".toList, .name "destination", 0⟩
  after := (Script.Lexer.turns 0 badgeCondition).drop 5
  word := "destination"
  turns := by decide +kernel
  token := rfl
  derives := Or.inl rfl

theorem asks_of_badgeOccurrence :
    .name "destination" ∈ (Script.Lexer.lexemes 0 badgeCondition).1.map (·.token) ∧
    mentions badgeCondition "destination" = true ∧
    takingBack.reconciler.deleteNeedsDestination = true ∧
    ∃ y z, Run takingBack (fun now _ => now = 0)
        (.cleaning takingBack.config [badgeDesk.pivotFor "badge=4" "4"] 0,
          ⟨(personnel, badgeDesk), [], [], ⟨0⟩⟩) y ∧
      Turn takingBack 0 y z ∧
      z.2.calls = [.bool badgeCondition (.ofDestination (badgeDesk.get? "badge=4"))] ∧
      ∀ c ∈ z.2.calls, takingBack.AsksAbout badgeCondition y.2.stores c := by
  have hlast : (badgeOccurrence.before.flatMap Script.Lexer.Turn.text ++
      badgeOccurrence.turn.skipped).getLast? = some ' ' := by decide +kernel
  have hvisible : badgeOccurrence.Visible :=
    ⟨rfl, by decide +kernel, fun c hc => by rw [hlast] at hc; cases hc; rfl⟩
  obtain ⟨htoken, hmentions, hneeds, hasks⟩ := asks_of_visible (t := takingBack) hvisible rfl rfl
  have hturns : (advance takingBack 7 (.cleaning takingBack.config
      [badgeDesk.pivotFor "badge=4" "4"] 0, ⟨(personnel, badgeDesk), [], [], ⟨0⟩⟩)).any (fun y =>
      y.2.calls.isEmpty && (y.1.step? takingBack 0 y.2).any fun z =>
        z.2.calls = [.bool badgeCondition (.ofDestination (badgeDesk.get? "badge=4"))]) = true := by
    decide +kernel
  obtain ⟨⟨p, w⟩, hadvance, hthen⟩ := (Option.any_eq_true _ _).1 hturns
  obtain ⟨hnothing, hnext⟩ := (Bool.and_eq_true _ _).mp hthen
  obtain ⟨⟨p', w'⟩, hstep, hcalls⟩ := (Option.any_eq_true _ _).1 hnext
  have hrun := run_of_advance hadvance
  have hturn := turn_of_step? hstep
  obtain ⟨asked, hasked, habout⟩ := hasks rfl hrun hturn
  rw [List.isEmpty_iff.1 hnothing, List.nil_append] at hasked
  exact ⟨htoken, hmentions, hneeds, _, _, hrun, hturn, of_decide_eq_true hcalls, hasked ▸ habout⟩

end Pass

end Deletions

end StoreSync
