import StoreSync.Expression.Table
import StoreSync.PollingLoop
import StoreSync.Proofs.Reports
import StoreSync.Proofs.Watermark

/-!
# The watermark over the cycles of a loop

A cycle of a polling loop captures a watermark, asks the source, and may run a pass over the answer.
What it captured stays pending when its pass fails, and is written over by the next cycle; two of
the four ways to end a cycle commit it.

The cycles of a loop are observed as a log (`PollingLoop.Run`), for any clock, any source and any
reports of the passes.  Every entry of a log obeys the entries before it (`PollingLoop.Lawful`), and
what the watermark is follows from the commits in the log alone (`PollingLoop.effective`):

* `PollingLoop.Steady.step` — what a loop between two steps knows of its own cycle, and how every
  step keeps it;
* `PollingLoop.Disciplined.monotone`, `PollingLoop.Disciplined.retried` — what follows for whole
  logs;
* `PollingLoop.run_of_recorded` — what a loop records of itself as a process is such a run.
-/

namespace StoreSync

/-! ## Questions -/

namespace Poller

variable {σ : Type}

/-- What a poller asks a source for. -/
inductive Question where
  | everything
  | changes (filter : Filter)

namespace Question

def ask (a : Adapter σ) (s : σ) : Question → Except StoreError (List Pivot) × σ
  | .everything => a.list s
  | .changes filter => a.changed filter s

/-- What a poller makes of the source's answer. -/
def outcome (a : Adapter σ) (s : σ) (q : Question) : Except SyncError (List Pivot) :=
  (q.ask a s).1.mapError fun e => .ofStore a.name e (a.isConnectionLost e)

end Question

/-- The question that belongs to a watermark. -/
def questionFrom (a : Adapter σ) (name : String) : Option Instant → Question
  | none => .everything
  | some since => if a.changeFeed then .changes (.changedSince name since) else .everything

/-- What the poller asks for next. -/
def question (p : Poller) (a : Adapter σ) : Question :=
  questionFrom a p.timestampAttribute p.watermark

lemma query_eq (p : Poller) (a : Adapter σ) (s : σ) : p.query a s = (p.question a).ask a s := by
  unfold query question questionFrom
  cases p.watermark with
  | none => rfl
  | some since => cases h : a.changeFeed <;> simp [Question.ask]

lemma answer_eq (p : Poller) (a : Adapter σ) (s : σ) :
    (p.answer a s).1 = (p.question a).outcome a s := by
  unfold answer Question.outcome
  rw [query_eq]
  cases h : (p.question a).ask a s with
  | mk result s' => cases result <;> rfl

lemma le_next {p : Poller} {now since : Instant} (h : p.watermark = some since) :
    since ≤ p.next now := by
  have hmax : max now since = if now ≤ since then since else now := rfl
  simp only [next, h, hmax]
  split
  · exact Int.le_refl _
  next hle => exact Int.le_of_lt (Int.not_le.1 hle)

end Poller

/-! ## Runs of a loop -/

namespace PollingLoop

variable {σ : Type}

/-- What is observed of a loop. -/
inductive Event where
  | captured (time : Instant)
  | asked (question : Poller.Question) (answer : Except SyncError (List Pivot))
  | reported (status : PassStatus)
  /-- The watermark has been committed, and is then as given. -/
  | committed (watermark : Option Instant)

/-- What is observed when the source answers. -/
def inquiry (t : Task σ) (l : PollingLoop σ) : List Event :=
  let answer := (l.poller.answer t.source l.engine.world.stores).1
  .asked (l.poller.question t.source) answer ::
    match answer with
    | .ok [] => [.committed l.poller.commit.watermark]
    | _ => []

/-- What is observed when the report of a pass is taken. -/
def reception (report : PassReport) (l : PollingLoop σ) : List Event :=
  .reported report.status ::
    match report.status with
    | .completed => [.committed l.poller.commit.watermark]
    | _ => []

/-- One step of a loop; the flag says that it has captured a watermark and not yet asked the source.
The clock, the engine with its stores and the reports of its passes may be any. -/
inductive Step (t : Task σ) : PollingLoop σ × Bool → List Event → PollingLoop σ × Bool → Prop
  | capture {l : PollingLoop σ} (time : Instant) (hstage : l.stage = .polling)
      (hgoes : l.stopping = false) :
      Step t (l, false) [.captured (l.poller.next time)]
        ({ l with poller := l.poller.capture time }, true)
  | inquire {l : PollingLoop σ} (now : Nat) :
      Step t (l, true) (l.inquiry t)
        (l.receive t now (l.poller.answer t.source l.engine.world.stores), false)
  | take {l : PollingLoop σ} (now : Nat) (report : PassReport) (hstage : l.stage = .passing) :
      Step t (l, false) (l.reception report) (l.take now report, false)
  | resume {l : PollingLoop σ} {deadline : Nat} (hstage : l.stage = .pausing deadline) :
      Step t (l, false) [] ({ l with stage := .polling }, false)
  | stop {l : PollingLoop σ} (hstage : l.stage ≠ .passing) :
      Step t (l, false) [] ({ l with stage := .ended }, false)
  | request {l : PollingLoop σ} {asking : Bool} (forced : Bool) :
      Step t (l, asking) [] (l.requestStop forced, asking)
  | giveUp {l : PollingLoop σ} {asking : Bool} : Step t (l, asking) [] (l.giveUp, false)
  /-- Passes go on, and other parties work on the stores. -/
  | elsewhere {l : PollingLoop σ} {asking : Bool} (engine : Engine σ) :
      Step t (l, asking) [] ({ l with engine := engine }, asking)

/-- Steps one after the other, with what is observed, newest event last. -/
inductive Run (t : Task σ) (x : PollingLoop σ × Bool) : List Event → PollingLoop σ × Bool → Prop
  | refl : Run t x [] x
  | step {log events : List Event} {y z : PollingLoop σ × Bool} (h : Run t x log y)
      (hstep : Step t y events z) : Run t x (log ++ events) z

variable {t : Task σ} {l l' : PollingLoop σ} {x y z : PollingLoop σ × Bool}
  {log earlier later : List Event}

lemma Run.trans (h : Run t x log y) (h' : Run t y later z) : Run t x (log ++ later) z := by
  induction h' with
  | refl => simpa using h
  | step _ hstep ih =>
    rw [← List.append_assoc]
    exact ih.step hstep

/-! ## What the log says of the watermark -/

/-- The watermark after what was observed. -/
def effective (start : Option Instant) (log : List Event) : Option Instant :=
  log.foldl (fun watermark e =>
    match e with
    | .committed watermark => watermark
    | _ => watermark) start

/-- The log ends with a query that was answered with changes, right after the capture of a
watermark. -/
def Queried (c : Instant) (log : List Event) : Prop :=
  ∃ before q pivots, pivots ≠ [] ∧ log = before ++ [.captured c, .asked q (.ok pivots)]

/-- The log ends with a cycle that has captured a watermark, then asked the source, and then either
was answered that there are no changes, or has completed a pass over them. -/
def Earned (c : Instant) (log : List Event) : Prop :=
  ∃ before, (∃ q, log = before ++ [.captured c, .asked q (.ok [])]) ∨
    Queried c before ∧ log = before ++ [.reported .completed]

/-- What may be observed after what was observed before. -/
def Lawful (a : Adapter σ) (p : Poller) (earlier : List Event) : Event → Prop
  | .captured c => ∀ since, effective p.watermark earlier = some since → since ≤ c
  | .asked q answer =>
    q = Poller.questionFrom a p.timestampAttribute (effective p.watermark earlier) ∧
      ∃ s, answer = q.outcome a s
  | .reported _ => ∃ c, Queried c earlier
  | .committed watermark => ∃ c, watermark = some c ∧ Earned c earlier

/-- A log in which everything obeys what stands before it. -/
def Disciplined (a : Adapter σ) (p : Poller) (log : List Event) : Prop :=
  ∀ earlier e later, log = earlier ++ e :: later → Lawful a p earlier e

section Log

variable {a : Adapter σ} {p : Poller} {start : Option Instant} {c since : Instant} {e : Event}

lemma effective_append : effective start (earlier ++ later) =
    effective (effective start earlier) later := List.foldl_append

lemma effective_of_uncommitted (h : ∀ watermark, .committed watermark ∉ log) :
    effective start log = start := by
  induction log with
  | nil => rfl
  | cons e rest ih =>
    cases e with
    | committed watermark => exact absurd List.mem_cons_self (h watermark)
    | _ => exact ih fun watermark hmem => h watermark (List.mem_cons_of_mem _ hmem)

lemma disciplined_nil : Disciplined a p [] := by
  intro earlier e later h
  simp at h

lemma Disciplined.concat (h : Disciplined a p log) (he : Lawful a p log e) :
    Disciplined a p (log ++ [e]) := by
  intro earlier e' later hlog
  rcases split_concat hlog.symm with ⟨-, rfl, rfl⟩ | ⟨later, -, hearlier⟩
  · exact he
  · exact h earlier e' later hearlier.symm

lemma Disciplined.of_append (h : Disciplined a p (earlier ++ later)) : Disciplined a p earlier := by
  rintro before e after rfl
  exact h before e (after ++ later) (by simp)

lemma Disciplined.last (h : Disciplined a p (log ++ [e])) : Lawful a p log e := h log e [] rfl

lemma Queried.le (h : Disciplined a p log) (hqueried : Queried c log)
    (hsince : effective p.watermark log = some since) : since ≤ c := by
  obtain ⟨before, q, pivots, -, rfl⟩ := hqueried
  rw [effective_append] at hsince
  exact h before (.captured c) _ rfl since hsince

/-- What is about to be committed does not lie before the watermark. -/
lemma Earned.le (h : Disciplined a p log) (hearned : Earned c log)
    (hsince : effective p.watermark log = some since) : since ≤ c := by
  rcases hearned with ⟨before, ⟨q, rfl⟩ | ⟨hqueried, rfl⟩⟩
  · rw [effective_append] at hsince
    exact h before (.captured c) _ rfl since hsince
  · rw [effective_append] at hsince
    exact hqueried.le h.of_append hsince

/-- The watermark never decreases. -/
theorem Disciplined.monotone (h : Disciplined a p (earlier ++ later))
    (hsince : effective p.watermark earlier = some since) :
    ∃ since', effective p.watermark (earlier ++ later) = some since' ∧ since ≤ since' := by
  induction later generalizing earlier since with
  | nil => exact ⟨since, by simpa using hsince, Int.le_refl _⟩
  | cons e rest ih =>
    rw [List.append_cons] at h ⊢
    have hone : ∃ since', effective p.watermark (earlier ++ [e]) = some since' ∧
        since ≤ since' := by
      rw [effective_append, hsince]
      cases e with
      | committed watermark =>
        obtain ⟨c, rfl, hearned⟩ := h.of_append.last
        exact ⟨c, rfl, hearned.le h.of_append.of_append hsince⟩
      | _ => exact ⟨since, rfl, Int.le_refl _⟩
    obtain ⟨since', hsince', hle⟩ := hone
    obtain ⟨since'', hsince'', hle'⟩ := ih h hsince'
    exact ⟨since'', hsince'', Instant.le_trans hle hle'⟩

/-! A cycle that is followed by another query -/

def Event.isAsked : Event → Bool
  | .asked _ _ => true
  | _ => false

variable {q : Poller.Question} {answer : Except SyncError (List Pivot)} {middle : List Event}

/-- What stands right before the end of a log stands right after the last query, or is it. -/
lemma asked_of_concat {before : List Event} {q' : Poller.Question}
    {answer' : Except SyncError (List Pivot)}
    (h : earlier ++ .asked q answer :: middle = before ++ [.asked q' answer'])
    (hnone : ∀ e ∈ middle, e.isAsked = false) : middle = [] ∧ answer = answer' := by
  rcases split_concat h with ⟨rfl, heq, -⟩ | ⟨middle, rfl, -⟩
  · exact ⟨rfl, (Event.asked.inj heq).2⟩
  · exact absurd (hnone _ (List.mem_append_right _ List.mem_cons_self)) (by simp [Event.isAsked])

lemma Queried.asked (h : Queried c (earlier ++ .asked q answer :: middle))
    (hnone : ∀ e ∈ middle, e.isAsked = false) : middle = [] ∧ ∃ pivots, answer = .ok pivots := by
  obtain ⟨before, q', pivots, -, hlog⟩ := h
  rw [List.append_cons before] at hlog
  obtain ⟨hmiddle, hanswer⟩ := asked_of_concat hlog hnone
  exact ⟨hmiddle, pivots, hanswer⟩

/-- A cycle commits right after its query or the report of a pass that has completed, and only if
the query succeeded. -/
lemma Earned.asked (h : Earned c (earlier ++ .asked q answer :: middle))
    (hnone : ∀ e ∈ middle, e.isAsked = false) :
    (∃ pivots, answer = .ok pivots) ∧ (middle = [] ∨ middle = [.reported .completed]) := by
  rcases h with ⟨before, ⟨q', hlog⟩ | ⟨hqueried, hlog⟩⟩
  · rw [List.append_cons before] at hlog
    obtain ⟨hmiddle, hanswer⟩ := asked_of_concat hlog hnone
    exact ⟨⟨[], hanswer⟩, Or.inl hmiddle⟩
  · rcases split_concat hlog with ⟨-, heq, -⟩ | ⟨middle, rfl, rfl⟩
    · simp at heq
    · obtain ⟨rfl, hanswer⟩ := hqueried.asked fun e he => hnone e (List.mem_append_left _ he)
      exact ⟨hanswer, Or.inr rfl⟩

/-- After a query that failed, or a pass that did not complete, nothing is committed before the next
query. -/
lemma Disciplined.uncommitted
    (h : Disciplined a p (earlier ++ .asked q answer :: (middle ++ later)))
    (hnone : ∀ e ∈ middle, e.isAsked = false)
    (hfailed : (∃ error, answer = .error error) ∨
      ∃ status, status ≠ .completed ∧ .reported status ∈ middle) (watermark : Option Instant) :
    .committed watermark ∉ middle := by
  intro hcommitted
  obtain ⟨first, rest, hmiddle⟩ := List.append_of_mem hcommitted
  obtain ⟨c, -, hearned⟩ := h (earlier ++ .asked q answer :: first) (.committed watermark)
    (rest ++ later) (by simp [hmiddle])
  obtain ⟨⟨pivots, hanswer⟩, hfirst⟩ := hearned.asked fun e he => hnone e (by simp [hmiddle, he])
  rcases hfailed with ⟨error, herror⟩ | ⟨status, hstatus, hreported⟩
  · simp [hanswer] at herror
  · obtain ⟨before, after, hsplit⟩ := List.append_of_mem hreported
    obtain ⟨c', hqueried⟩ := h (earlier ++ .asked q answer :: before) (.reported status)
      (after ++ later) (by simp [hsplit])
    obtain ⟨rfl, -⟩ := hqueried.asked fun e he => hnone e (by simp [hsplit, he])
    -- The report comes first after the query, and so does the commit or a report that is another.
    rcases hfirst with rfl | rfl
    · simp [hmiddle] at hsplit
    · simp only [hmiddle, List.cons_append, List.nil_append, List.cons.injEq,
        Event.reported.injEq] at hsplit
      exact hstatus hsplit.1.symm

/-- **A cycle that did not commit is repeated from the same point.** -/
lemma Disciplined.retried {q' : Poller.Question} {answer' : Except SyncError (List Pivot)}
    (h : Disciplined a p (earlier ++ .asked q answer :: (middle ++ .asked q' answer' :: later)))
    (hnone : ∀ e ∈ middle, e.isAsked = false)
    (hfailed : (∃ error, answer = .error error) ∨
      ∃ status, status ≠ .completed ∧ .reported status ∈ middle) : q' = q := by
  obtain ⟨hq, -⟩ := h earlier (.asked q answer) _ rfl
  obtain ⟨hq', -⟩ := h (earlier ++ .asked q answer :: middle) (.asked q' answer') later (by simp)
  have hsame : effective (effective p.watermark earlier) (.asked q answer :: middle) =
      effective p.watermark earlier := by
    refine effective_of_uncommitted fun watermark hmem => ?_
    rcases List.mem_cons.1 hmem with heq | hmem
    · simp at heq
    · exact h.uncommitted hnone hfailed watermark hmem
  rw [hq', effective_append, hsame, ← hq]

end Log

/-! ## What a loop knows of its cycle -/

/-- Between two steps a loop that has captured a watermark, or waits for its pass, still has this
watermark pending. -/
structure Steady (t : Task σ) (p : Poller) (log : List Event) (x : PollingLoop σ × Bool) :
    Prop where
  disciplined : Disciplined t.source p log
  watermark : x.1.poller.watermark = effective p.watermark log
  name : x.1.poller.timestampAttribute = p.timestampAttribute
  asking : x.2 = true → x.1.stage = .polling ∧
    ∃ c before, log = before ++ [.captured c] ∧ x.1.poller.pending = some c
  passing : x.1.stage = .passing → ∃ c, Queried c log ∧ x.1.poller.pending = some c

variable {p : Poller} {events : List Event}

lemma commit_eq {c : Instant} (h : p.pending = some c) :
    p.commit = { p with watermark := some c, pending := none } := by
  simp only [Poller.commit, h]

/-- A step in which nothing is observed and the poller is left alone. -/
lemma Steady.quiet (h : Steady t p log x) (hpoller : y.1.poller = x.1.poller)
    (hasking : y.2 = true → x.2 = true ∧ y.1.stage = x.1.stage)
    (hpassing : y.1.stage = .passing → x.1.stage = .passing) : Steady t p (log ++ []) y := by
  rw [List.append_nil]
  refine ⟨h.disciplined, ?_, ?_, fun hy => ?_, fun hy => ?_⟩
  · rw [hpoller]
    exact h.watermark
  · rw [hpoller]
    exact h.name
  · obtain ⟨hx, hstage⟩ := hasking hy
    rw [hpoller, hstage]
    exact h.asking hx
  · rw [hpoller]
    exact h.passing (hpassing hy)

lemma Steady.capture (h : Steady t p log (l, false)) (time : Instant)
    (hstage : l.stage = .polling) :
    Steady t p (log ++ [.captured (l.poller.next time)])
      ({ l with poller := l.poller.capture time }, true) := by
  refine ⟨h.disciplined.concat fun since hsince => ?_, ?_, h.name,
    fun _ => ⟨hstage, _, log, rfl, rfl⟩, by simp [hstage]⟩
  · exact Poller.le_next (h.watermark.trans hsince)
  · rw [effective_append]
    exact h.watermark

lemma Steady.asked {asking : Bool} (h : Steady t p log (l, asking)) :
    Disciplined t.source p (log ++ [.asked (l.poller.question t.source)
      (l.poller.answer t.source l.engine.world.stores).1]) := by
  have hwatermark : l.poller.watermark = effective p.watermark log := h.watermark
  have hname : l.poller.timestampAttribute = p.timestampAttribute := h.name
  refine h.disciplined.concat ⟨?_, l.engine.world.stores, Poller.answer_eq _ _ _⟩
  rw [Poller.question, hname, hwatermark]

/-- What a cycle has earned becomes the watermark. -/
lemma Steady.commit {c : Instant} {asking : Bool} {l' : PollingLoop σ}
    (h : Steady t p log (l, asking)) (hdisciplined : Disciplined t.source p (log ++ events))
    (hearned : Earned c (log ++ events)) (hpending : l.poller.pending = some c)
    (hl' : l'.poller = l.poller.commit) (hstage : l'.stage ≠ .passing) :
    Steady t p (log ++ events ++ [.committed l.poller.commit.watermark]) (l', false) := by
  rw [commit_eq hpending] at hl' ⊢
  refine ⟨hdisciplined.concat ⟨c, rfl, hearned⟩, ?_, ?_, by simp, fun hpassing => ?_⟩
  · simp [effective, hl']
  · rw [hl']
    exact h.name
  · exact absurd hpassing hstage

lemma Steady.inquire (h : Steady t p log (l, true)) (now : Nat) :
    Steady t p (log ++ l.inquiry t)
      (l.receive t now (l.poller.answer t.source l.engine.world.stores), false) := by
  obtain ⟨hstage, c, before, hlog, hpending⟩ := h.asking rfl
  have hasked := h.asked
  have hsame : ∀ answer, l.poller.watermark =
      effective p.watermark (log ++ [.asked (l.poller.question t.source) answer]) := by
    intro answer
    rw [effective_append]
    exact h.watermark
  cases hquery : l.poller.query t.source l.engine.world.stores with
  | mk result stores =>
    cases result with
    | error e =>
      simp only [inquiry, receive, Poller.answer, hquery] at hasked ⊢
      exact ⟨hasked, hsame _, h.name, by simp, by simp [pause]⟩
    | ok pivots =>
      cases pivots with
      | nil =>
        -- Of the three outcomes this one commits, and the capture stands right before the query.
        simp only [inquiry, receive, Poller.answer, hquery] at hasked ⊢
        rw [List.append_cons]
        refine h.commit hasked ⟨before, Or.inl ⟨l.poller.question t.source, ?_⟩⟩ hpending rfl
          (by simp [pause])
        rw [hlog, List.append_assoc]
        rfl
      | cons pivot rest =>
        simp only [inquiry, receive, Poller.answer, hquery] at hasked ⊢
        refine ⟨hasked, hsame _, h.name, by simp, fun _ => ⟨c, ?_, hpending⟩⟩
        refine ⟨before, l.poller.question t.source, pivot :: rest, by simp, ?_⟩
        rw [hlog, List.append_assoc]
        rfl

lemma Steady.take (h : Steady t p log (l, false)) (now : Nat) (report : PassReport)
    (hstage : l.stage = .passing) :
    Steady t p (log ++ l.reception report) (l.take now report, false) := by
  obtain ⟨c, hqueried, hpending⟩ := h.passing hstage
  have hreported : Disciplined t.source p (log ++ [.reported report.status]) :=
    h.disciplined.concat ⟨c, hqueried⟩
  have hsame : l.poller.watermark =
      effective p.watermark (log ++ [.reported report.status]) := by
    rw [effective_append]
    exact h.watermark
  cases hstatus : report.status with
  | completed =>
    simp only [reception, PollingLoop.take, hstatus] at hreported ⊢
    rw [List.append_cons]
    exact h.commit hreported ⟨log, Or.inr ⟨hqueried, rfl⟩⟩ hpending rfl (by simp)
  | incomplete =>
    simp only [reception, PollingLoop.take, hstatus] at hreported hsame ⊢
    exact ⟨hreported, hsame, h.name, by simp, by simp [pause]⟩
  | failed =>
    simp only [reception, PollingLoop.take, hstatus] at hreported hsame ⊢
    exact ⟨hreported, hsame, h.name, by simp, by simp [pause]⟩

/-- Every step of a loop keeps what it knows. -/
theorem Steady.step (h : Steady t p log x) (hstep : Step t x events y) :
    Steady t p (log ++ events) y := by
  cases hstep with
  | capture time hstage _ => exact h.capture time hstage
  | inquire now => exact h.inquire now
  | take now report hstage => exact h.take now report hstage
  | resume hstage => exact h.quiet rfl (by simp) (by simp)
  | stop hstage => exact h.quiet rfl (by simp) (by simp)
  | request forced => exact h.quiet rfl (fun hx => ⟨hx, rfl⟩) id
  | giveUp => exact h.quiet rfl (by simp) (by simp [giveUp])
  | elsewhere engine => exact h.quiet rfl (fun hx => ⟨hx, rfl⟩) id

/-! ## The loops of the engine -/

/-- What is observed of the turn that a loop takes. -/
def observed (t : Task σ) (now : Nat) (l : PollingLoop σ) : List Event :=
  match l.stage with
  | .polling =>
    if l.stopping then []
    else
      let time := l.engine.world.epoch.addMilliseconds now
      .captured (l.poller.next time) :: { l with poller := l.poller.capture time }.inquiry t
  | .passing =>
    match l.engine.report? t now with
    | some report => l.reception report
    | none => []
  | _ => []

/-- A loop as a process, with a record of what is observed of it. -/
def recorded (t : Task σ) : Process (PollingLoop σ × List Event) where
  step? now x := ((process t).step? now x.1).map fun l => (l, x.2 ++ x.1.observed t now)
  wake? x := (process t).wake? x.1

lemma run_of_lead? {now : Nat} (h : l.lead? t now = some l') :
    Run t (l, false) (l.observed t now) (l', false) := by
  unfold lead? at h
  unfold observed
  split at h
  next hstage =>
    simp only [hstage]
    split at h
    next hstops =>
      obtain rfl := Option.some.inj h
      rw [if_pos hstops]
      exact Run.refl.step (.stop (by simp [hstage]))
    next hgoes =>
      -- A poll is a capture and a query with nothing in between.
      obtain rfl := Option.some.inj h
      rw [if_neg hgoes]
      exact (Run.refl.step (.capture _ hstage (Bool.eq_false_iff.2 hgoes))).step (.inquire now)
  next hstage =>
    obtain ⟨report, hreport, rfl⟩ := Option.map_eq_some_iff.1 h
    simp only [hstage, hreport]
    exact Run.refl.step (.take now report hstage)
  next deadline hstage =>
    simp only [hstage]
    split at h
    · obtain rfl := Option.some.inj h
      exact Run.refl.step (.stop (by simp [hstage]))
    · split at h
      · obtain rfl := Option.some.inj h
        exact Run.refl.step (.resume hstage)
      · simp at h
  · simp at h

/-- A loop that takes no turn of its own is not observed. -/
lemma observed_of_lead? {now : Nat} (h : l.lead? t now = none) : l.observed t now = [] := by
  unfold lead? at h
  unfold observed
  split at h
  · simp at h
  next hstage =>
    simp only [hstage, Option.map_eq_none_iff.1 h]
  next hstage => simp only [hstage]
  next hstage => simp only [hstage]

lemma run_of_step? {now : Nat} (h : (process t).step? now l = some l') :
    Run t (l, false) (l.observed t now) (l', false) := by
  simp only [process] at h
  split at h
  next hlead =>
    obtain rfl := Option.some.inj h
    exact run_of_lead? hlead
  next hlead =>
    obtain ⟨e, -, rfl⟩ := Option.map_eq_some_iff.1 h
    rw [observed_of_lead? hlead]
    exact Run.refl.step (.elsewhere e)

/-- What is recorded of a loop is a run of it. -/
lemma run_of_recorded (t : Task σ) (l : PollingLoop σ) (wanted : PollingLoop σ × List Event → Bool)
    (deadline : Option Nat) (fuel time : Nat) :
    Run t (l, false) ((recorded t).run wanted deadline fuel ⟨time, (l, [])⟩).state.2
      (((recorded t).run wanted deadline fuel ⟨time, (l, [])⟩).state.1, false) := by
  refine Process.run_keeps (I := fun x : PollingLoop σ × List Event =>
    Run t (l, false) x.2 (x.1, false)) ?_ .refl
  rintro time x x' hrun hstep
  obtain ⟨l', hl', rfl⟩ := Option.map_eq_some_iff.1 hstep
  exact hrun.trans (run_of_step? hl')

/-! ## Whole runs -/

/-- What a run of a loop from a poller on has done with the watermark. -/
structure KeepsWatermark (a : Adapter σ) (p : Poller) (log : List Event) (p' : Poller) : Prop where
  /-- The watermark is the last one that was committed. -/
  watermark : p'.watermark = effective p.watermark log
  /-- It never decreases. -/
  monotone : ∀ earlier later, log = earlier ++ later → ∀ since,
    effective p.watermark earlier = some since →
      ∃ since', effective p.watermark log = some since' ∧ since ≤ since'
  /-- Every query asks for everything as long as there is no watermark, and then for what has
  changed since the last committed one, or for everything when the source has no change feed; and it
  is what the source has answered. -/
  asked : ∀ earlier q answer later, log = earlier ++ .asked q answer :: later →
    q = Poller.questionFrom a p.timestampAttribute (effective p.watermark earlier) ∧
      ∃ s, answer = q.outcome a s
  /-- Every watermark was captured before the query of its own cycle; the query succeeded, and its
  batch was empty or the pass over it completed. -/
  committed : ∀ earlier watermark later, log = earlier ++ .committed watermark :: later →
    ∃ c, watermark = some c ∧ Earned c earlier
  /-- After a query that failed, or a pass that did not complete, the next query is the same. -/
  retried : ∀ earlier q answer middle q' answer' later,
    log = earlier ++ .asked q answer :: (middle ++ .asked q' answer' :: later) →
    (∀ e ∈ middle, e.isAsked = false) →
    ((∃ error, answer = .error error) ∨
      ∃ status, status ≠ .completed ∧ .reported status ∈ middle) → q' = q

lemma Steady.keepsWatermark (h : Steady t p log x) :
    KeepsWatermark t.source p log x.1.poller := by
  refine ⟨h.watermark, ?_, ?_, ?_, ?_⟩
  · rintro earlier later rfl since hsince
    exact h.disciplined.monotone hsince
  · intro earlier q answer later hlog
    exact h.disciplined earlier _ later hlog
  · intro earlier watermark later hlog
    exact h.disciplined earlier _ later hlog
  · rintro earlier q answer middle q' answer' later rfl hnone hfailed
    exact h.disciplined.retried hnone hfailed

lemma Steady.run (h : Steady t p earlier x) (hrun : Run t x log y) :
    Steady t p (earlier ++ log) y := by
  induction hrun with
  | refl => simpa using h
  | step _ hstep ih =>
    rw [← List.append_assoc]
    exact ih.step hstep

/-- **The discipline of the watermark.**  Take a loop between two cycles, with any poller, any
source and any configuration, and any run of it: any clock, any answers, any reports of its passes,
stops at any moment, and any work of others between the capture and the query of a cycle.  Then the
watermark is kept as it should be.  In particular it is kept so by the loop as a process, however
long it goes on, with the record of what it does. -/
theorem keepsWatermark_of_run (hstage : l.stage ≠ .passing) :
    (∀ log x, Run t (l, false) log x → KeepsWatermark t.source l.poller log x.1.poller) ∧
      ∀ (wanted : PollingLoop σ → Bool) (deadline : Option Nat) (fuel time : Nat),
        ∃ time' l' log, (process t).run wanted deadline fuel ⟨time, l⟩ = ⟨time', l'⟩ ∧
          (recorded t).run (fun x => wanted x.1) deadline fuel ⟨time, (l, [])⟩ =
            ⟨time', (l', log)⟩ ∧
          Run t (l, false) log (l', false) ∧ KeepsWatermark t.source l.poller log l'.poller := by
  have hstart : Steady t l.poller [] (l, false) :=
    ⟨disciplined_nil, rfl, rfl, by simp, fun hpassing => absurd hpassing hstage⟩
  have hkept : ∀ log x, Run t (l, false) log x →
      KeepsWatermark t.source l.poller log x.1.poller :=
    fun log x hrun => (hstart.run hrun).keepsWatermark
  refine ⟨hkept, fun wanted deadline fuel time => ?_⟩
  have hrun := run_of_recorded t l (fun x => wanted x.1) deadline fuel time
  have hsame : (process t).run wanted deadline fuel ⟨time, l⟩ = _ :=
    Process.run_map (q := recorded t) (y := (l, [])) Prod.fst
      (fun now x => by simp [recorded, Function.comp_def]) (fun x => rfl)
  exact ⟨_, _, _, hsame, rfl, hrun, hkept _ _ hrun⟩

/-! Four cycles, of which the second fails and the third runs a pass that fails, while the clock
goes back and forth; and the same source asked by the process. -/

/-- A source that answers as it is told beforehand. -/
def scripted : Adapter (List (Except StoreError (List Pivot))) where
  name := "scripted"
  isConnectionLost := StoreError.isConnectionLost
  changeFeed := true
  list script := (script.headD (.ok []), script.tail)
  changed _ script := (script.headD (.ok []), script.tail)
  requestFetch _ script := (0, script)
  answerFetch _ script := (.ok none, script)
  apply _ _ script := (.ok false, script)

def patient : Task (List (Except StoreError (List Pivot))) :=
  ⟨.new "patient", scripted, scripted, .ofTable []⟩

def patience : PollingLoop (List (Except StoreError (List Pivot))) :=
  .new patient.config (.new [.ok [.ofId "a"], .error (.connectionFailed "no route"),
    .ok [.ofId "b"], .ok []] ⟨0⟩)

def patientReport (status : PassStatus) : PassReport :=
  ⟨"patient", .incremental, status, .zero, none, 0⟩

def patientLog : List Event :=
  let changes := Poller.Question.changes (.changedSince "modifyTimestamp" ⟨100⟩)
  [.captured ⟨100⟩, .asked .everything (.ok [.ofId "a"]), .reported .completed,
    .committed (some ⟨100⟩),
    .captured ⟨100⟩, .asked changes (.error (.connectionLost "scripted"
      (.connectionFailed "no route"))),
    .captured ⟨120⟩, .asked changes (.ok [.ofId "b"]), .reported .failed,
    .captured ⟨110⟩, .asked changes (.ok []), .committed (some ⟨110⟩)]

theorem keepsWatermark_of_patience :
    (∃ x, Run patient (patience, false) patientLog x ∧
      KeepsWatermark patient.source patience.poller patientLog x.1.poller) ∧
    ∃ time l log, (process patient).run (fun _ => false) (some 12000) 60 ⟨0, patience⟩ = ⟨time, l⟩ ∧
      KeepsWatermark patient.source patience.poller log l.poller ∧
      l.poller.watermark = some ⟨10000000000⟩ := by
  have first := ((Run.refl (t := patient) (x := (patience, false))).step
    (.capture ⟨100⟩ rfl rfl)).step (.inquire 0)
  have second := ((first.step (.take 0 (patientReport .completed) rfl)).step
    (.capture ⟨50⟩ rfl rfl)).step (.inquire 0)
  have third := ((second.step (.resume rfl)).step (.capture ⟨120⟩ rfl rfl)).step (.inquire 0)
  have fourth := (((third.step (.take 0 (patientReport .failed) rfl)).step (.resume rfl)).step
    (.capture ⟨110⟩ rfl rfl)).step (.inquire 0)
  have hrun : Run patient (patience, false) patientLog _ := fourth
  obtain ⟨hkept, hprocess⟩ := keepsWatermark_of_run (t := patient) (l := patience) (by decide)
  obtain ⟨time, l, log, hwaited, -, -, hlog⟩ := hprocess (fun _ => false) (some 12000) 60 0
  have hwatermark : ((process patient).run (fun _ => false) (some 12000) 60
      ⟨0, patience⟩).state.poller.watermark = some ⟨10000000000⟩ := by decide +kernel
  rw [hwaited] at hwatermark
  exact ⟨⟨_, hrun, hkept _ _ hrun⟩, time, l, log, hwaited, hlog, hwatermark⟩

end PollingLoop

end StoreSync
