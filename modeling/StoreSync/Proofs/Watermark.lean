import StoreSync.Poller
import StoreSync.Proofs.Calendar
import StoreSync.Proofs.Stores

/-!
# What a poller can miss

A poller queries a store while writers change it (`Feed`).  A write takes two steps, the reading of
the clock and the landing of the entry with that time, and a cycle of the poller takes three, the
capture of the next watermark, the query and the commit; the steps interleave in any order.

A write that has landed is in the next batch, unless a cycle was captured in a later second than
the one that its writer had read, and was answered before the write landed
(`Feed.missed_iff`).

* `Feed.Sound` — what every reachable feed satisfies: no time lies after the clock;
* `Feed.Traces` — which cycle a later watermark comes from;
* `MemoryStore.mem_changed_iff` — what a query for changed entries returns.
-/

namespace StoreSync

/-! ## Times -/

namespace Instant

variable {a b c : Instant}

lemma le_trans (h : a ≤ b) (h' : b ≤ c) : a ≤ c := Int.le_trans h h'

lemma seconds_le (h : a ≤ b) : a.seconds ≤ b.seconds := by
  have h : a.nanoseconds ≤ b.nanoseconds := h
  unfold seconds
  omega

lemma max_eq (a b : Instant) : max a b = a ∨ max a b = b := by
  show (if a ≤ b then b else a) = a ∨ (if a ≤ b then b else a) = b
  by_cases h : a ≤ b
  · exact Or.inr (if_pos h)
  · exact Or.inl (if_neg h)

end Instant

/-! ## Writes in two steps -/

/-- What a writer asks of a store. -/
inductive Write where
  | insert (entity : Entity)
  | change (change : Change)

namespace MemoryStore

variable {s s' : MemoryStore} {w : Write} {time : Instant}

/-- The first step of a write, at which the clock is read. -/
def admits (s : MemoryStore) : Write → Except StoreError Unit
  | .insert _ => .ok ()
  | .change _ => s.checkConnection

/-- The second step of a write, which holds the entries. -/
def land (s : MemoryStore) (time : Instant) : Write → Except StoreError MemoryStore
  | .insert e => s.insertAt e time
  | .change c => s.applyAt c time

lemma modifiedAt_of_insert {m : TextMap StoredEntry} {key k : String} {e : Entity}
    {entry : StoredEntry} (hget : (m.insert key ⟨e, time⟩).get? k = some entry) :
    entry.modifiedAt = time ∨ m.get? k = some entry := by
  rw [TextMap.get?_insert] at hget
  split at hget
  · rw [← Option.some.inj hget]
    exact Or.inl rfl
  · exact Or.inr hget

/-- What lands has the time of its write; everything else is left as it was or removed. -/
lemma modifiedAt_of_changeEntries {c : Change} {m m' : TextMap StoredEntry}
    (h : changeEntries c time m = .ok m') {k : String} {entry : StoredEntry}
    (hget : m'.get? k = some entry) : entry.modifiedAt = time ∨ m.get? k = some entry := by
  have herase : ∀ {key : String}, (m.erase key).get? k = some entry → m.get? k = some entry := by
    intro key hget
    rw [TextMap.get?_erase] at hget
    split at hget
    · simp at hget
    · exact hget
  unfold changeEntries at h
  cases hm : c.modification with
  | create =>
    simp only [hm] at h
    split at h
    · simp at h
    · obtain rfl := Except.ok.inj h
      exact modifiedAt_of_insert hget
  | update =>
    simp only [hm] at h
    split at h
    · obtain rfl := Except.ok.inj h
      exact modifiedAt_of_insert hget
    · simp at h
  | delete =>
    simp only [hm] at h
    split at h
    · obtain rfl := Except.ok.inj h
      exact Or.inr (herase hget)
    · simp at h
  | rename =>
    simp only [hm] at h
    split at h
    · simp at h
    · split at h
      · simp at h
      · split at h
        · obtain rfl := Except.ok.inj h
          rcases modifiedAt_of_insert hget with htime | hget
          · exact Or.inl htime
          · exact Or.inr (herase hget)
        · simp at h

/-- A landed write changes entries and nothing else that a query looks at. -/
lemma land_spec (h : s.land time w = .ok s') :
    s'.pivotAttribute = s.pivotAttribute ∧ s'.timestampAttribute = s.timestampAttribute ∧
      s'.changeFeed = s.changeFeed ∧ ∀ k entry, s'.entries.get? k = some entry →
        entry.modifiedAt = time ∨ s.entries.get? k = some entry := by
  cases w with
  | insert e =>
    simp only [land, insertAt] at h
    split at h
    next key hkey =>
      obtain rfl := Except.ok.inj h
      exact ⟨rfl, rfl, rfl, fun k entry hget => modifiedAt_of_insert hget⟩
    · simp at h
  | change c =>
    simp only [land, applyAt] at h
    cases hchange : changeEntries c time s.entries with
    | error e => simp [hchange, bind, Except.bind] at h
    | ok m =>
      rw [hchange] at h
      obtain rfl := Except.ok.inj h
      exact ⟨rfl, rfl, rfl, fun k entry hget => modifiedAt_of_changeEntries hchange hget⟩

/-! ## Queries -/

/-- Whether an entry was written at or after an instant goes by whole seconds. -/
lemma holds_changedSince {entry : StoredEntry} {name : String} {since : Instant}
    (hname : Text.sameFolded name s.timestampAttribute = true) (hsince : since.InYears)
    (hstamp : entry.modifiedAt.InYears) :
    (Filter.changedSince name since).holds (s.lookup entry) = true ↔
      since.seconds ≤ entry.modifiedAt.seconds := by
  have horder := Instant.generalizedTime_le_iff hsince hstamp
  simp [Filter.changedSince, Filter.holds, lookup, hname, horder]

/-- A query for what was written at or after an instant goes by whole seconds. -/
lemma mem_changed_iff {name : String} {since : Instant} {batch : List Pivot}
    (h : s.changed (.changedSince name since) = .ok batch)
    (hname : Text.sameFolded name s.timestampAttribute = true) (hsince : since.InYears)
    (hstamps : ∀ k entry, s.entries.get? k = some entry → entry.modifiedAt.InYears) {p : Pivot} :
    p ∈ batch ↔ ∃ k entry, s.entries.get? k = some entry ∧ s.pivotOf? entry.entity = some p ∧
      since.seconds ≤ entry.modifiedAt.seconds := by
  have hbatch : batch = s.orderedPivots ((s.entries.values.filter fun entry =>
      (Filter.changedSince name since).holds (s.lookup entry)).map (·.entity)) := by
    unfold changed at h
    cases hfeed : s.changeFeed with
    | false => simp [hfeed, bind, Except.bind, throw, throwThe, MonadExceptOf.throw] at h
    | true =>
      cases hconnection : s.checkConnection with
      | error e => simp [hfeed, hconnection, bind, Except.bind] at h
      | ok u => simpa [hfeed, hconnection, bind, Except.bind, pure, Except.pure, eq_comm] using h
  have hholds : ∀ k entry, s.entries.get? k = some entry →
      ((Filter.changedSince name since).holds (s.lookup entry) = true ↔
        since.seconds ≤ entry.modifiedAt.seconds) := fun k entry hget =>
    holds_changedSince hname hsince (hstamps k entry hget)
  rw [hbatch, mem_orderedPivots]
  constructor
  · rintro ⟨entry, hentry, hp⟩
    obtain ⟨hvalue, hmatch⟩ := List.mem_filter.1 hentry
    obtain ⟨k, hget⟩ := TextMap.mem_values_iff.1 hvalue
    exact ⟨k, entry, hget, hp, (hholds k entry hget).1 hmatch⟩
  · rintro ⟨k, entry, hget, hp, hseconds⟩
    refine ⟨entry, List.mem_filter.2 ⟨?_, ?_⟩, hp⟩
    · exact TextMap.mem_values_iff.2 ⟨k, hget⟩
    · exact (hholds k entry hget).2 hseconds

end MemoryStore

/-! ## A polled store -/

namespace Poller

/-- A query changes nothing of the poller but what a commit would make effective. -/
lemma answer_cases (p : Poller) (a : Adapter MemoryStore) (m : MemoryStore) :
    (∃ batch, (p.answer a m).1 = .ok batch ∧ (p.answer a m).2.1 = p ∧
      (p.query a m).1 = .ok batch) ∨
    ∃ e, (p.answer a m).1 = .error e ∧ (p.answer a m).2.1 = { p with pending := none } := by
  unfold Poller.answer
  split
  next pivots n hquery => exact Or.inl ⟨pivots, rfl, rfl, by rw [hquery]⟩
  next e n hquery => exact Or.inr ⟨_, rfl, rfl⟩

end Poller

/-- A store with its writers and the poller that queries it, under one clock. -/
structure Feed where
  clock : Instant
  store : MemoryStore
  poller : Poller
  /-- Whether the poller has captured a watermark and not yet queried. -/
  asking : Bool
  /-- The writes that have read the clock and not yet landed. -/
  writes : List (Write × Instant)

namespace Feed

inductive Event where
  | tick
  | connection (lost : Bool)
  | read (w : Write)
  | land (w : Write) (time : Instant)
  | capture (time : Instant)
  | query (answer : Except SyncError (List Pivot))
  | commit

/-- The source that the poller queries. -/
def source (s : Feed) : Adapter MemoryStore :=
  MemoryStore.adapter s.store.name s.store.changeFeed

/-- One step of a writer, of the poller or of the clock.  A write that the store refuses changes
nothing. -/
inductive Step : Feed → Event → Feed → Prop
  | tick {s : Feed} {time : Instant} (hle : s.clock ≤ time) (hyears : time.InYears) :
      Step s .tick { s with clock := time }
  | connection {s : Feed} (lost : Bool) :
      Step s (.connection lost) { s with store := { s.store with connectionLost := lost } }
  | read {s : Feed} {w : Write} (hadmits : s.store.admits w = .ok ()) :
      Step s (.read w) { s with writes := (w, s.clock) :: s.writes }
  | land {s : Feed} {w : Write} {time : Instant} {before after : List (Write × Instant)}
      {store : MemoryStore} (hwrites : s.writes = before ++ (w, time) :: after)
      (hland : s.store.land time w = .ok store) :
      Step s (.land w time) { s with store := store, writes := before ++ after }
  | refuse {s : Feed} {w : Write} {time : Instant} {before after : List (Write × Instant)}
      {e : StoreError} (hwrites : s.writes = before ++ (w, time) :: after)
      (hland : s.store.land time w = .error e) :
      Step s (.land w time) { s with writes := before ++ after }
  | capture {s : Feed} (hidle : s.asking = false) :
      Step s (.capture (s.poller.next s.clock))
        { s with poller := s.poller.capture s.clock, asking := true }
  | query {s : Feed} (hasking : s.asking = true) :
      Step s (.query (s.poller.answer s.source s.store).1)
        { s with poller := (s.poller.answer s.source s.store).2.1, asking := false }
  | commit {s : Feed} (hidle : s.asking = false) :
      Step s .commit { s with poller := s.poller.commit }

/-- Steps one after the other, with their events. -/
inductive Run : Feed → List Event → Feed → Prop
  | refl {s : Feed} : Run s [] s
  | tail {s s' s'' : Feed} {events : List Event} {event : Event} (hrun : Run s events s')
      (hstep : Step s' event s'') : Run s (events ++ [event]) s''

/-- A feed before its first step: the poller is new, its timestamp attribute is that of the store,
which lists changed entries, and no write is under way. -/
structure Start (s : Feed) : Prop where
  watermark : s.poller.watermark = none
  pending : s.poller.pending = none
  asking : s.asking = false
  writes : s.writes = []
  changeFeed : s.store.changeFeed = true
  timestamp : Text.sameFolded s.poller.timestampAttribute s.store.timestampAttribute = true
  clock : s.clock.InYears
  stamps : ∀ k entry, s.store.entries.get? k = some entry → entry.modifiedAt.InYears

/-- What every reachable feed satisfies: the times lie in the years that generalized times order,
and no watermark lies after the clock. -/
structure Sound (s : Feed) : Prop where
  changeFeed : s.store.changeFeed = true
  timestamp : Text.sameFolded s.poller.timestampAttribute s.store.timestampAttribute = true
  clock : s.clock.InYears
  stamps : ∀ k entry, s.store.entries.get? k = some entry → entry.modifiedAt.InYears
  writes : ∀ w ∈ s.writes, w.2.InYears
  watermark : ∀ since, s.poller.watermark = some since → since.InYears ∧ since ≤ s.clock
  pending : ∀ since, s.poller.pending = some since → since.InYears ∧ since ≤ s.clock

variable {s s' : Feed} {event : Event} {events : List Event}

lemma Start.sound (h : Start s) : Sound s := by
  refine ⟨h.changeFeed, h.timestamp, h.clock, h.stamps, ?_, ?_, ?_⟩
  · simp [h.writes]
  · simp [h.watermark]
  · simp [h.pending]

lemma Sound.next (h : Sound s) :
    (s.poller.next s.clock).InYears ∧ s.poller.next s.clock ≤ s.clock := by
  unfold Poller.next
  cases hwatermark : s.poller.watermark with
  | none => exact ⟨h.clock, Int.le_refl _⟩
  | some previous =>
    obtain ⟨hyears, hle⟩ := h.watermark previous hwatermark
    rcases Instant.max_eq s.clock previous with heq | heq
    · simp only [heq]
      exact ⟨h.clock, Int.le_refl _⟩
    · simp only [heq]
      exact ⟨hyears, hle⟩

/-- Every step keeps a feed sound. -/
lemma Sound.step (h : Sound s) (hstep : Step s event s') : Sound s' := by
  cases hstep with
  | tick hle hyears =>
    refine { h with clock := hyears, watermark := ?_, pending := ?_ }
    · intro since hsince
      obtain ⟨hyears', hle'⟩ := h.watermark since hsince
      exact ⟨hyears', Instant.le_trans hle' hle⟩
    · intro since hsince
      obtain ⟨hyears', hle'⟩ := h.pending since hsince
      exact ⟨hyears', Instant.le_trans hle' hle⟩
  | connection lost => exact { h with }
  | read hadmits =>
    refine { h with writes := ?_ }
    rintro w (_ | ⟨_, hw⟩)
    · exact h.clock
    · exact h.writes w hw
  | @land w time before after store hwrites hland =>
    have hrest : before ++ after ⊆ s.writes := by
      rw [hwrites]
      exact ((List.sublist_cons_self ..).append_left before).subset
    have htime : time.InYears := h.writes (w, time) (by simp [hwrites])
    obtain ⟨-, htimestamp, hfeed, hstamps⟩ := MemoryStore.land_spec hland
    refine { h with changeFeed := ?_, timestamp := ?_, stamps := ?_, writes := ?_ }
    · exact hfeed.trans h.changeFeed
    · rw [htimestamp]
      exact h.timestamp
    · intro k entry hget
      rcases hstamps k entry hget with heq | hget'
      · rw [heq]
        exact htime
      · exact h.stamps k entry hget'
    · exact fun x hx => h.writes x (hrest hx)
  | @refuse w time before after e hwrites hland =>
    have hrest : before ++ after ⊆ s.writes := by
      rw [hwrites]
      exact ((List.sublist_cons_self ..).append_left before).subset
    exact { h with writes := fun x hx => h.writes x (hrest hx) }
  | capture hidle =>
    refine { h with pending := ?_ }
    intro since hsince
    obtain rfl : s.poller.next s.clock = since := Option.some.inj hsince
    exact h.next
  | query hasking =>
    rcases Poller.answer_cases s.poller s.source s.store with
      ⟨batch, -, hpoller, -⟩ | ⟨e, -, hpoller⟩
    · rw [hpoller]
      exact { h with }
    · rw [hpoller]
      exact { h with pending := by simp }
  | commit hidle =>
    unfold Poller.commit
    split
    next time hpending =>
      refine { h with watermark := ?_, pending := by simp }
      intro since hsince
      obtain rfl : time = since := Option.some.inj hsince
      exact h.pending time hpending
    · exact h

lemma Sound.run (h : Sound s) (hrun : Run s events s') : Sound s' := by
  induction hrun with
  | refl => exact h
  | tail _ hstep ih => exact ih.step hstep

/-! ## Where a watermark comes from -/

/-- A watermark was captured, and a query was answered after that. -/
def Answered (since : Instant) (events : List Event) : Prop :=
  ∃ before after, events = before ++ after ∧ .capture since ∈ before ∧
    ∃ batch, .query (.ok batch) ∈ after

/-- The watermarks that lie after a time were captured in one of the given events, and those that
are committed, or can be, were answered as well. -/
structure Traces (time : Instant) (events : List Event) (s : Feed) : Prop where
  watermark : ∀ since, s.poller.watermark = some since → since ≤ time ∨ Answered since events
  asked : s.asking = true → ∀ since, s.poller.pending = some since →
    since ≤ time ∨ .capture since ∈ events
  pending : s.asking = false → ∀ since, s.poller.pending = some since →
    since ≤ time ∨ Answered since events

lemma Answered.append {since : Instant} (h : Answered since events) (event : Event) :
    Answered since (events ++ [event]) := by
  obtain ⟨before, after, rfl, hcapture, batch, hquery⟩ := h
  refine ⟨before, after ++ [event], List.append_assoc .., hcapture, batch, ?_⟩
  exact List.mem_append_left _ hquery

/-- Events without an answer do not answer a capture. -/
lemma Answered.of_append {since : Instant} {later : List Event}
    (h : Answered since (events ++ later)) (hnone : ∀ batch, .query (.ok batch) ∉ later) :
    Answered since events := by
  obtain ⟨before, after, heq, hcapture, batch, hquery⟩ := h
  rcases List.append_eq_append_iff.1 heq with ⟨middle, rfl, rfl⟩ | ⟨middle, rfl, rfl⟩
  · exact absurd (List.mem_append_right middle hquery) (hnone batch)
  · refine ⟨before, middle, rfl, hcapture, batch, ?_⟩
    exact (List.mem_append.1 hquery).resolve_right (hnone batch)

/-- When the clock is read, no watermark lies after it. -/
lemma Sound.traces (h : Sound s) : Traces s.clock [] s :=
  ⟨fun since hsince => Or.inl (h.watermark since hsince).2,
    fun _ since hsince => Or.inl (h.pending since hsince).2,
    fun _ since hsince => Or.inl (h.pending since hsince).2⟩

lemma Traces.step {time : Instant} (h : Traces time events s) (hstep : Step s event s') :
    Traces time (events ++ [event]) s' := by
  have hwatermark : ∀ since, s.poller.watermark = some since →
      since ≤ time ∨ Answered since (events ++ [event]) := fun since hsince =>
    (h.watermark since hsince).imp_right (Answered.append · event)
  have hasked : s.asking = true → ∀ since, s.poller.pending = some since →
      since ≤ time ∨ .capture since ∈ events ++ [event] := fun hasking since hsince =>
    (h.asked hasking since hsince).imp_right (List.mem_append_left _)
  have hpending : s.asking = false → ∀ since, s.poller.pending = some since →
      since ≤ time ∨ Answered since (events ++ [event]) := fun hidle since hsince =>
    (h.pending hidle since hsince).imp_right (Answered.append · event)
  cases hstep with
  | tick | connection | read | land | refuse => exact ⟨hwatermark, hasked, hpending⟩
  | capture hidle =>
    refine ⟨hwatermark, fun _ since hsince => Or.inr ?_, by simp⟩
    obtain rfl : s.poller.next s.clock = since := Option.some.inj hsince
    exact List.mem_append_right _ (List.mem_singleton_self _)
  | query hasking =>
    rcases Poller.answer_cases s.poller s.source s.store with
      ⟨batch, hanswer, hpoller, -⟩ | ⟨e, hanswer, hpoller⟩
    · rw [hpoller, hanswer]
      rw [hanswer] at hwatermark
      refine ⟨hwatermark, by simp, fun _ since hsince => ?_⟩
      refine (h.asked hasking since hsince).imp_right fun hcapture => ?_
      exact ⟨events, [_], rfl, hcapture, batch, List.mem_singleton_self _⟩
    · rw [hpoller]
      exact ⟨hwatermark, by simp, by simp⟩
  | commit hidle =>
    unfold Poller.commit
    split
    next captured hcaptured =>
      refine ⟨fun since hsince => ?_, by simp, by simp⟩
      obtain rfl : captured = since := Option.some.inj hsince
      exact hpending hidle captured hcaptured
    · exact ⟨hwatermark, hasked, hpending⟩

lemma Traces.run {time : Instant} {later : List Event} (h : Traces time events s)
    (hrun : Run s later s') : Traces time (events ++ later) s' := by
  induction hrun with
  | refl => simpa using h
  | tail _ hstep ih =>
    rw [← List.append_assoc]
    exact ih.step hstep

/-! ## Missed writes -/

/-- What an answered query returns: everything before the first commit, and after it what was
written in the second of the watermark or later. -/
lemma Sound.mem_batch_iff (h : Sound s) {batch : List Pivot}
    (hstep : Step s (.query (.ok batch)) s') {p : Pivot} :
    p ∈ batch ↔ ∃ k entry, s.store.entries.get? k = some entry ∧
      s.store.pivotOf? entry.entity = some p ∧
      ∀ since, s.poller.watermark = some since → since.seconds ≤ entry.modifiedAt.seconds := by
  have hquery : (s.poller.query s.source s.store).1 = .ok batch := by
    generalize hevent : Event.query (.ok batch) = event at hstep
    cases hstep with
    | query hasking =>
      rcases Poller.answer_cases s.poller s.source s.store with
        ⟨batch', hanswer, -, hquery⟩ | ⟨e, hanswer, -⟩
      · rw [hanswer] at hevent
        rw [hquery]
        simpa [eq_comm] using hevent
      · rw [hanswer] at hevent
        simp at hevent
    | _ => simp at hevent
  cases hwatermark : s.poller.watermark with
  | none =>
    have hlist : s.store.list = .ok batch := by
      simpa [Poller.query, hwatermark, source, MemoryStore.adapter] using hquery
    simp [MemoryStore.mem_list_iff hlist]
  | some since =>
    have hchanged : s.store.changed (.changedSince s.poller.timestampAttribute since) =
        .ok batch := by
      simpa [Poller.query, hwatermark, source, MemoryStore.adapter, h.changeFeed] using hquery
    rw [MemoryStore.mem_changed_iff hchanged h.timestamp (h.watermark since hwatermark).1 h.stamps]
    simp

/-- **What a poller misses.**  Take any run in which a writer reads the clock and its write lands
later, and the first query that is answered after that.  As long as the entry that the write has
left is there, its pivot is missing in the batch exactly if the committed watermark was captured
and answered between the two steps of the write, and lies in a later second than the last write of
any entry with the pivot. -/
theorem missed_iff {x a a' b b' q q' : Feed} {earlier between later : List Event} {w : Write}
    {k : String} {e : Entity} {p : Pivot} {batch : List Pivot}
    (hstart : Start x) (hearlier : Run x earlier a) (hread : Step a (.read w) a')
    (hbetween : Run a' between b) (hland : Step b (.land w a.clock) b') (hlater : Run b' later q)
    (hfirst : ∀ batch, .query (.ok batch) ∉ later)
    (hlatest : q.store.entries.get? k = some ⟨e, a.clock⟩) (hpivot : q.store.pivotOf? e = some p)
    (hquery : Step q (.query (.ok batch)) q') :
    p ∉ batch ↔ ∃ since, q.poller.watermark = some since ∧ Answered since between ∧
      ∀ k entry, q.store.entries.get? k = some entry → q.store.pivotOf? entry.entity = some p →
        entry.modifiedAt.seconds < since.seconds := by
  have hsound := hstart.sound.run hearlier
  have hend := (((hsound.step hread).run hbetween).step hland).run hlater
  have htraces : Traces a.clock (between ++ [.land w a.clock] ++ later) q := by
    have hread' : Traces a.clock [] a' := by
      have htraces := hsound.traces
      cases hread
      exact ⟨htraces.watermark, htraces.asked, htraces.pending⟩
    exact ((hread'.run hbetween).step hland).run hlater
  rw [hend.mem_batch_iff hquery]
  constructor
  · intro hmissed
    cases hwatermark : q.poller.watermark with
    | none => exact absurd ⟨k, _, hlatest, hpivot, by simp [hwatermark]⟩ hmissed
    | some since =>
      have hlost : ∀ k entry, q.store.entries.get? k = some entry →
          q.store.pivotOf? entry.entity = some p → entry.modifiedAt.seconds < since.seconds := by
        intro k entry hget hp
        by_contra hnot
        refine hmissed ⟨k, entry, hget, hp, fun since' hsince => ?_⟩
        obtain rfl : since = since' := Option.some.inj (hwatermark.symm.trans hsince)
        omega
      refine ⟨since, rfl, ?_, hlost⟩
      rcases htraces.watermark since hwatermark with hle | hanswered
      · have hseconds := Instant.seconds_le hle
        have hbefore : a.clock.seconds < since.seconds := hlost k _ hlatest hpivot
        omega
      · exact (hanswered.of_append hfirst).of_append (by simp)
  · rintro ⟨since, hwatermark, -, hlost⟩ ⟨k, entry, hget, hp, hseconds⟩
    have hafter := hseconds since hwatermark
    have hbefore := hlost k entry hget hp
    omega

/-! A writer reads the clock, a cycle goes by, and then the write lands. -/

def opening : Instant := ⟨1709294400000000000⟩

def closing : Instant := opening.addMilliseconds 5000

def roster : MemoryStore := .new "roster" "mail"

def hire : Entity := .putAll (.named "uid=1") [("mail", [.string "a@x"])]

/-- The roster with the late entry. -/
def staffed : MemoryStore :=
  { roster with entries := roster.entries.insert "uid=1" ⟨hire, opening⟩ }

def late : List (Write × Instant) := [(.insert hire, opening)]

/-- The roster and its poller. -/
def polled (clock : Instant) (store : MemoryStore) (watermark pending : Option Instant)
    (asking : Bool) (writes : List (Write × Instant)) : Feed :=
  ⟨clock, store, ⟨"modifyTimestamp", 5000, watermark, pending⟩, asking, writes⟩

theorem hire_missed :
    ∃ (a b c q q' : Feed) (between later : List Event) (batch : List Pivot),
      Step (polled opening roster none none false []) (.read (.insert hire)) a ∧
      Run a between b ∧ Step b (.land (.insert hire) opening) c ∧ Run c later q ∧
      (∀ batch, .query (.ok batch) ∉ later) ∧ Step q (.query (.ok batch)) q' ∧
      q.store.get? "uid=1" = some hire ∧
      (Pivot.ofId "uid=1").withAttribute "mail" "a@x" ∉ batch := by
  have hstart : Start (polled opening roster none none false []) := by
    refine ⟨rfl, rfl, rfl, rfl, rfl, by decide +kernel, by decide +kernel, fun k entry hget => ?_⟩
    simp [polled, roster, MemoryStore.new] at hget
  have hread : Step (polled opening roster none none false []) (.read (.insert hire))
      (polled opening roster none none false late) := .read rfl
  have htick : Step (polled opening roster none none false late) .tick
      (polled closing roster none none false late) := .tick (by decide +kernel) (by decide +kernel)
  have hcapture : Step (polled closing roster none none false late) (.capture closing)
      (polled closing roster none (some closing) true late) := .capture rfl
  have hanswer : Step (polled closing roster none (some closing) true late)
      (.query (.ok (roster.orderedPivots roster.entities)))
      (polled closing roster none (some closing) false late) := .query rfl
  have hcommit : Step (polled closing roster none (some closing) false late) .commit
      (polled closing roster (some closing) none false late) := .commit rfl
  have hland : Step (polled closing roster (some closing) none false late)
      (.land (.insert hire) opening) (polled closing staffed (some closing) none false []) :=
    @Step.land _ (.insert hire) opening [] [] staffed rfl rfl
  have hcapture' : Step (polled closing staffed (some closing) none false []) (.capture closing)
      (polled closing staffed (some closing) (some closing) true []) := .capture rfl
  have hquery : Step (polled closing staffed (some closing) (some closing) true [])
      (.query (.ok (staffed.orderedPivots ((staffed.entries.values.filter fun entry =>
        (Filter.changedSince "modifyTimestamp" closing).holds (staffed.lookup entry)).map
        (·.entity))))) (polled closing staffed (some closing) (some closing) false []) := .query rfl
  have hbetween := (((Run.refl.tail htick).tail hcapture).tail hanswer).tail hcommit
  have hlater := Run.refl.tail hcapture'
  have hmissed := (missed_iff (k := "uid=1") (e := hire) hstart .refl hread hbetween hland hlater
    (by simp) rfl rfl hquery).2
  refine ⟨_, _, _, _, _, _, _, _, hread, hbetween, hland, hlater, by simp, hquery, by rfl, ?_⟩
  refine hmissed ⟨closing, rfl, ?_, fun k entry hget _ => ?_⟩
  · exact ⟨[.tick, .capture closing], [_, .commit], rfl, by simp, _, List.mem_cons_self⟩
  · have hentries : (polled closing staffed (some closing) (some closing) true []).store.entries =
        (∅ : TextMap StoredEntry).insert "uid=1" ⟨hire, opening⟩ := rfl
    rw [hentries, TextMap.get?_insert] at hget
    split at hget
    · rw [← Option.some.inj hget]
      decide +kernel
    · simp at hget

end Feed

end StoreSync
