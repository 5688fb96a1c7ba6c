import StoreSync.Proofs.Suppression

/-!
# What a unit does to the destination

A unit works on the destination in one step at most, its last, and only if it ends well.  An error
of any kind, in any step, leaves the destination as the unit found it, and so does the step in which
a unit that has lost its connection cancels the pass.

* `MemoryStore.perform` carries a change out on the store itself, one write after the other, and
  what was written before an error would stay.  `MemoryStore.run_perform` says that nothing is: it
  comes to the same as `MemoryStore.apply`, which answers a new store or an error;
* `MemoryStore.amended_of_apply` is the frame of a change: one entry is new, another one, gone or
  under another key, and every other entry is as it was;
* `Task.Errand` is a unit with its steps, between which others may change anything;
  `Task.trodden_of_unitStep` is what a single step does, `Task.Errand.trodden` what they all do;
* `Task.atomic_of_backed` collects what is certain of units and changes (`Task.Atomic`).
-/

namespace StoreSync

namespace TextMap

variable {α : Type*}

lemma erase_of_get?_eq_none {m : TextMap α} {key : String} (h : m.get? key = none) :
    m.erase key = m := by
  refine ext_get? fun key' => ?_
  by_cases hk : key = key'
  · rw [← hk, get?_erase_self, h]
  · exact get?_erase_of_ne m hk

end TextMap

namespace MemoryStore

variable {c : Change} {now : Instant} {s s' : MemoryStore}

/-! ## Changes in place -/

/-- Take an entry out of the store. -/
def remove (key : String) : StateM MemoryStore (Option StoredEntry) :=
  fun s => (s.entries.get? key, { s with entries := s.entries.erase key })

/-- Put an entry into the store. -/
def put (key : String) (entry : StoredEntry) : StateM MemoryStore Unit :=
  fun s => ((), { s with entries := s.entries.insert key entry })

/-- Make the change to the entries of the store, which were seen as they are in `s`. -/
def alter (c : Change) (now : Instant) (s : MemoryStore) :
    ExceptT StoreError (StateM MemoryStore) Unit :=
  let key := Text.fold c.identifier
  match c.modification with
  | .create =>
    if s.entries.contains key then throw (.objectExists c.identifier)
    else put key ⟨c.applyTo (.named c.identifier), now⟩
  | .update =>
    match s.entries.get? key with
    | some entry => put key ⟨c.applyTo entry.entity, now⟩
    | none => throw (.objectNotFound c.identifier)
  | .delete => do
    match ← remove key with
    | some _ => pure ()
    | none => throw (.objectNotFound c.identifier)
  | .rename =>
    match c.newIdentifier with
    | none => throw (.invalidData "rename without new identifier")
    | some new =>
      if Text.fold new ≠ key ∧ s.entries.contains (Text.fold new) then throw (.objectExists new)
      else do
        match ← remove key with
        | some entry => put (Text.fold new) ⟨{ entry.entity with identifier := some new }, now⟩
        | none => throw (.objectNotFound c.identifier)

/-- Carry a change out on the store, one write after the other.  An error leaves what was written
before it. -/
def perform (c : Change) (now : Instant) : ExceptT StoreError (StateM MemoryStore) Unit := do
  let s ← get
  match s.checkConnection with
  | .error e => throw e
  | .ok () =>
    alter c now s
    modify fun s => { s with applied := s.applied + 1 }

lemma run_bind {α β : Type} (x : ExceptT StoreError (StateM MemoryStore) α)
    (f : α → ExceptT StoreError (StateM MemoryStore) β) (s : MemoryStore) :
    (bind x f).run s = ExceptT.bindCont f (x.run s).1 (x.run s).2 := rfl

lemma run_remove_bind {α : Type} (key : String)
    (f : Option StoredEntry → ExceptT StoreError (StateM MemoryStore) α) (s : MemoryStore) :
    (bind (liftM (remove key)) f).run s =
      (f (s.entries.get? key)).run { s with entries := s.entries.erase key } := rfl

lemma run_alter (c : Change) (now : Instant) (s : MemoryStore) :
    (alter c now s).run s =
      match changeEntries c now s.entries with
      | .ok entries => (.ok (), { s with entries })
      | .error e => (.error e, s) := by
  obtain ⟨modification, identifier, newIdentifier, operations⟩ := c
  -- To take out an entry that is not there changes nothing.
  have hmissing : s.entries.get? (Text.fold identifier) = none →
      { s with entries := s.entries.erase (Text.fold identifier) } = s := by
    intro h
    rw [TextMap.erase_of_get?_eq_none h]
  cases modification with
  | create =>
    simp only [alter, changeEntries]
    split <;> rfl
  | update =>
    cases hentry : s.entries.get? (Text.fold identifier) with
    | none | some entry =>
      simp only [alter, changeEntries, hentry]
      rfl
  | delete =>
    simp only [alter, changeEntries, TextMap.contains, run_remove_bind]
    rcases (s.entries.get? (Text.fold identifier)).eq_none_or_eq_some with hentry | ⟨entry, hentry⟩
    · simp only [hentry, hmissing hentry]
      rfl
    · simp only [hentry]
      rfl
  | rename =>
    cases newIdentifier with
    | none => rfl
    | some new =>
      simp only [alter, changeEntries]
      split
      · rfl
      · simp only [run_remove_bind]
        rcases (s.entries.get? (Text.fold identifier)).eq_none_or_eq_some with
          hentry | ⟨entry, hentry⟩
        · simp only [hentry, hmissing hentry]
          rfl
        · simp only [hentry]
          rfl

/-- **A change that is refused has written nothing**: in place, too, it leaves the store as it
was. -/
theorem run_perform (c : Change) (now : Instant) (s : MemoryStore) :
    (perform c now).run s =
      match s.apply c now with
      | .ok s' => (.ok (), s')
      | .error e => (.error e, s) := by
  have hget : (perform c now).run s =
      (match s.checkConnection with
      | .error e => throw e
      | .ok () => do
        alter c now s
        modify fun s => { s with applied := s.applied + 1 } :
          ExceptT StoreError (StateM MemoryStore) Unit).run s := rfl
  rw [hget]
  cases hconnection : s.checkConnection with
  | error e =>
    simp only [apply, hconnection]
    rfl
  | ok =>
    simp only [apply, applyAt, hconnection, run_bind, run_alter]
    cases changeEntries c now s.entries with
    | error e => rfl
    | ok entries => rfl

/-! ## One entry and the others -/

/-- What a change that is made at a time does to the entries: it concerns one of them, and every
other entry is as it was. -/
inductive Amended (c : Change) (now : Instant) (m m' : TextMap StoredEntry) : Prop
  | create (hkind : c.modification = .create) (hfree : m.get? (Text.fold c.identifier) = none)
      (hnew : m'.get? (Text.fold c.identifier) = some ⟨c.applyTo (.named c.identifier), now⟩)
      (hrest : ∀ k, k ≠ Text.fold c.identifier → m'.get? k = m.get? k)
  | update {old : StoredEntry} (hkind : c.modification = .update)
      (hold : m.get? (Text.fold c.identifier) = some old)
      (hnew : m'.get? (Text.fold c.identifier) = some ⟨c.applyTo old.entity, now⟩)
      (hrest : ∀ k, k ≠ Text.fold c.identifier → m'.get? k = m.get? k)
  | delete {old : StoredEntry} (hkind : c.modification = .delete)
      (hold : m.get? (Text.fold c.identifier) = some old)
      (hgone : m'.get? (Text.fold c.identifier) = none)
      (hrest : ∀ k, k ≠ Text.fold c.identifier → m'.get? k = m.get? k)
  /-- The entry goes over to another key, which was free, or stays under its own. -/
  | rename {old : StoredEntry} {new : String} (hkind : c.modification = .rename)
      (haim : c.newIdentifier = some new) (hold : m.get? (Text.fold c.identifier) = some old)
      (hmoved : Text.fold new = Text.fold c.identifier ∨
        m.get? (Text.fold new) = none ∧ m'.get? (Text.fold c.identifier) = none)
      (hnew : m'.get? (Text.fold new) =
        some ⟨{ old.entity with identifier := some new }, now⟩)
      (hrest : ∀ k, k ≠ Text.fold c.identifier → k ≠ Text.fold new → m'.get? k = m.get? k)

/-- The entries to which a change cannot be made. -/
def Misfit (c : Change) (m : TextMap StoredEntry) : Prop :=
  match c.modification with
  | .create => (m.get? (Text.fold c.identifier)).isSome
  | .update | .delete => m.get? (Text.fold c.identifier) = none
  | .rename =>
    m.get? (Text.fold c.identifier) = none ∨ c.newIdentifier = none ∨
      ∃ new, c.newIdentifier = some new ∧ Text.fold new ≠ Text.fold c.identifier ∧
        (m.get? (Text.fold new)).isSome

variable {m m' : TextMap StoredEntry}

lemma amended_of_changeEntries (h : changeEntries c now m = .ok m') : Amended c now m m' := by
  obtain ⟨modification, identifier, newIdentifier, operations⟩ := c
  cases modification with
  | create =>
    simp only [changeEntries] at h
    split at h
    · simp at h
    next hfree =>
      obtain rfl := Except.ok.inj h
      refine .create rfl ?_ (TextMap.get?_insert_self ..)
        fun k hk => TextMap.get?_insert_of_ne _ hk.symm _
      simpa [TextMap.contains] using hfree
  | update =>
    simp only [changeEntries] at h
    split at h
    next old hold =>
      obtain rfl := Except.ok.inj h
      exact .update rfl hold (TextMap.get?_insert_self ..)
        fun k hk => TextMap.get?_insert_of_ne _ hk.symm _
    · simp at h
  | delete =>
    simp only [changeEntries] at h
    split at h
    next hthere =>
      obtain rfl := Except.ok.inj h
      obtain ⟨old, hold⟩ := Option.isSome_iff_exists.1 hthere
      exact .delete rfl hold (TextMap.get?_erase_self ..)
        fun k hk => TextMap.get?_erase_of_ne _ hk.symm
    · simp at h
  | rename =>
    simp only [changeEntries] at h
    split at h
    · simp at h
    next new =>
      split at h
      · simp at h
      next hfree =>
        split at h
        next old hold =>
          obtain rfl := Except.ok.inj h
          refine .rename rfl rfl hold ?_ (TextMap.get?_insert_self ..) fun k hk hk' => ?_
          · refine or_iff_not_imp_left.2 fun hne => ⟨?_, ?_⟩
            · simpa [TextMap.contains] using fun hthere => hfree ⟨hne, hthere⟩
            · rw [TextMap.get?_insert_of_ne _ hne, TextMap.get?_erase_self]
          · rw [TextMap.get?_insert_of_ne _ hk'.symm, TextMap.get?_erase_of_ne _ hk.symm]
        · simp at h

lemma exists_error_of_misfit (now : Instant) (h : Misfit c m) :
    ∃ e, changeEntries c now m = .error e := by
  obtain ⟨modification, identifier, newIdentifier, operations⟩ := c
  cases modification with
  | create => exact ⟨_, if_pos h⟩
  | update =>
    have hgone : m.get? (Text.fold identifier) = none := h
    exact ⟨.objectNotFound identifier, by simp only [changeEntries, hgone]⟩
  | delete =>
    have hgone : m.get? (Text.fold identifier) = none := h
    exact ⟨_, if_neg (by simp [TextMap.contains, hgone])⟩
  | rename =>
    cases newIdentifier with
    | none => exact ⟨_, rfl⟩
    | some new =>
      by_cases htaken : Text.fold new ≠ Text.fold identifier ∧ m.contains (Text.fold new) = true
      · exact ⟨_, if_pos htaken⟩
      · have hgone : m.get? (Text.fold identifier) = none := by
          rcases h with hgone | hnone | ⟨new', hnew, hne, hthere⟩
          · exact hgone
          · simp at hnone
          · obtain rfl := Option.some.inj hnew
            exact absurd ⟨hne, hthere⟩ htaken
        exact ⟨.objectNotFound identifier, by simp only [changeEntries, if_neg htaken, hgone]⟩

/-- A store in which a change has been made. -/
structure Took (c : Change) (now : Instant) (s s' : MemoryStore) : Prop where
  entries : Amended c now s.entries s'.entries
  /-- The change is counted, and nothing else of the store is another. -/
  rest : s' = { s with entries := s'.entries, applied := s.applied + 1 }

lemma took_of_apply (h : s.apply c now = .ok s') : Took c now s s' := by
  unfold apply applyAt at h
  cases hconnection : s.checkConnection with
  | error e => simp [hconnection, bind, Except.bind] at h
  | ok =>
    cases hentries : changeEntries c now s.entries with
    | error e => simp [hconnection, hentries, bind, Except.bind] at h
    | ok entries =>
      simp only [hconnection, hentries, bind, Except.bind, pure, Except.pure,
        Except.ok.injEq] at h
      subst h
      exact ⟨amended_of_changeEntries hentries, rfl⟩

lemma exists_error_of_refused (now : Instant) (h : s.connectionLost = true ∨ Misfit c s.entries) :
    ∃ e, s.apply c now = .error e := by
  cases hconnection : s.checkConnection with
  | error e => exact ⟨e, by simp [apply, hconnection, bind, Except.bind]⟩
  | ok =>
    have hlost : s.connectionLost ≠ true := by
      intro hlost
      simp [checkConnection, hlost] at hconnection
    obtain ⟨e, he⟩ := exists_error_of_misfit now (h.resolve_left hlost)
    exact ⟨e, by simp [apply, applyAt, hconnection, he, bind, Except.bind]⟩

end MemoryStore

/-! ## The steps of a unit -/

/-- A step of a unit: the world that it finds, what happens, and the world that it leaves. -/
structure Leg (σ : Type) where
  found : World σ
  events : List Event
  left : World σ

namespace Task

variable {σ : Type} {t : Task σ} {clean : Bool} {now : Nat} {p : Pivot} {j j' : Job}
  {l l' : Ledger} {w w' : World σ} {part : σ → MemoryStore} {legs : List (Leg σ)} {c : Change}

/-- The unit of a pivot with the steps that it has made.  Anything may happen between them: a step
is made at any time, with any ledger, and in any world. -/
inductive Errand (t : Task σ) (clean : Bool) (p : Pivot) : List (Leg σ) → Job → Prop
  | new : Errand t clean p [] (.new p)
  | step {legs : List (Leg σ)} {j j' : Job} {now : Nat} {l l' : Ledger} {w w' : World σ}
      (h : Errand t clean p legs j)
      (hstep : t.unitStep clean now j l w = (.running j', l', w')) :
      Errand t clean p (legs ++ [⟨w, t.unitEvents clean now j l w, w'⟩]) j'

/-- A step that leaves the destination as it was, and in which it has taken no change. -/
structure Spares (part : σ → MemoryStore) (x : Leg σ) : Prop where
  same : part x.left.stores = part x.found.stores
  untaken : ∀ p c, .answered p c (.ok true) ∉ x.events

/-- A step in which the destination has taken a change, and the unit has ended well. -/
structure Changes (part : σ → MemoryStore) (p : Pivot) (c : Change) (x : Leg σ) : Prop where
  events : x.events = [.answered p c (.ok true), .ended p (.ok ())]
  took : ∃ now, MemoryStore.Took c now (part x.found.stores) (part x.left.stores)

/-- What a step of a unit can be for the destination. -/
inductive Treads (part : σ → MemoryStore) (p : Pivot) (x : Leg σ) (j' : Job) : Prop
  | on (hgoes : j'.phase.isThrough = false) (hspares : Spares part x)
      (hrunning : ∀ r, .ended p r ∉ x.events)
  | off (hthrough : j'.phase.isThrough = true) (hspares : Spares part x)
  | change {c : Change} (hended : j'.phase = .ended) (hchanges : Changes part p c x)

/-- A memory store takes a change or is left as it is. -/
lemma Backed.apply (h : t.Backed part) (c : Change) (time : Instant) (stores : σ) :
    (∃ e, (t.destination.apply c time stores).1 = .error e ∧
      part (t.destination.apply c time stores).2 = part stores) ∨
    (t.destination.apply c time stores).1 = .ok true ∧
      (part stores).apply c time = .ok (part (t.destination.apply c time stores).2) := by
  obtain ⟨name, feed, replace, hdestination, hreplace⟩ := h.destination
  rw [hdestination]
  simp only [Adapter.within, Adapter.within.onPart, hreplace, MemoryStore.adapter]
  cases happly : (part stores).apply c time with
  | error e => exact Or.inl ⟨e, rfl, rfl⟩
  | ok s' => exact Or.inr ⟨rfl, rfl⟩

/-- What a step of a unit can be for the destination. -/
lemma Backed.treads (h : t.Backed part)
    (hstep : t.unitStep clean now j l w = (.running j', l', w')) :
    Treads part j.pivot ⟨w, t.unitEvents clean now j l w, w'⟩ j' := by
  by_cases hphase : ∃ c, j.phase = .applying c
  · obtain ⟨c, hphase⟩ := hphase
    obtain ⟨rfl, hstores⟩ := carried_of_unitStep hphase hstep
    simp only [unitEvents, hphase]
    rcases h.apply c (w.epoch.addMilliseconds now) w.stores with
      ⟨e, hanswer, hsame⟩ | ⟨hanswer, happly⟩
    · exact .off (Phase.isThrough_after _) ⟨hstores ▸ hsame, by simp [hanswer]⟩
    · exact .change (by simp [hanswer, checkApplied, Phase.after])
        ⟨by simp [hanswer, checkApplied], _, hstores ▸ MemoryStore.took_of_apply happly⟩
  · have hsame : part w'.stores = part w.stores := by
      have hspared : part (t.unitStep clean now j l w).2.2.stores = part w.stores :=
        h.unitStep (not_exists.1 hphase)
      rwa [hstep] at hspared
    have hdoing := doing_of_step hstep
    generalize t.unitEvents clean now j l w = events at hdoing
    cases hdoing with
    | enter | start | plan => exact .on rfl ⟨hsame, by simp⟩ (by simp)
    | ask hasked _ =>
      rcases hasked with ⟨-, rfl⟩ | ⟨-, known, rfl⟩ <;> exact .on rfl ⟨hsame, by simp⟩ (by simp)
    | settle => exact .off (Phase.isThrough_after _) ⟨hsame, by simp⟩
    | hold => exact .off (Phase.isThrough_after (.ok ())) ⟨hsame, by simp⟩
    | late | cancel => exact .off rfl ⟨hsame, by simp⟩
    | apply hc | refuse hc => exact absurd ⟨_, hc⟩ hphase

/-! ## Whole units -/

/-- What the steps of a unit come to. -/
inductive Trodden (part : σ → MemoryStore) (p : Pivot) (legs : List (Leg σ)) (j : Job) : Prop
  /-- The unit is still on its way. -/
  | under (hgoes : j.phase.isThrough = false) (hspares : ∀ x ∈ legs, Spares part x)
      (hrunning : ∀ x ∈ legs, ∀ r, .ended p r ∉ x.events)
  | through (hthrough : j.phase.isThrough = true) (hspares : ∀ x ∈ legs, Spares part x)
  /-- The last step has made a change. -/
  | changed {earlier : List (Leg σ)} {last : Leg σ} {c : Change} (hended : j.phase = .ended)
      (hlegs : legs = earlier ++ [last]) (hspares : ∀ x ∈ earlier, Spares part x)
      (hrunning : ∀ x ∈ earlier, ∀ r, .ended p r ∉ x.events) (hchanges : Changes part p c last)

lemma unitStep_of_ended (h : j.phase = .ended) :
    t.unitStep clean now j l w ≠ (.running j', l', w') := by
  simp [unitStep, h]

/-- A unit that has its result makes no step that concerns the destination. -/
lemma spares_of_through (hthrough : j.phase.isThrough = true)
    (hstep : t.unitStep clean now j l w = (.running j', l', w')) :
    j'.phase = .ended ∧ Spares part ⟨w, t.unitEvents clean now j l w, w'⟩ := by
  cases hphase : j.phase with
  | lost =>
    simp only [unitStep, hphase, Prod.mk.injEq, Progress.running.injEq] at hstep
    obtain ⟨rfl, -, rfl⟩ := hstep
    exact ⟨rfl, rfl, by simp [unitEvents, hphase]⟩
  | ended => exact absurd hstep (unitStep_of_ended hphase)
  | _ => simp [hphase] at hthrough

lemma pivot_of_unitStep (hstep : t.unitStep clean now j l w = (.running j', l', w')) :
    j'.pivot = j.pivot := by
  have hdoing := doing_of_step hstep
  generalize t.unitEvents clean now j l w = events at hdoing
  cases hdoing <;> rfl

lemma Errand.pivot (h : t.Errand clean p legs j) : j.pivot = p := by
  induction h with
  | new => rfl
  | step _ hstep ih => exact (pivot_of_unitStep hstep).trans ih

theorem Errand.trodden (h : t.Errand clean p legs j) (hbacked : t.Backed part) :
    Trodden part p legs j := by
  induction h with
  | new => exact .under rfl (by simp) (by simp)
  | @step legs j j' now l l' w w' hbefore hstep ih =>
    cases ih with
    | under _ hspares hrunning =>
      have htreads := hbacked.treads hstep
      rw [hbefore.pivot] at htreads
      cases htreads with
      | on hgoes hspare hrun =>
        exact .under hgoes (List.forall_mem_append.2 ⟨hspares, by simpa using hspare⟩)
          (List.forall_mem_append.2 ⟨hrunning, by simpa using hrun⟩)
      | off hthrough hspare =>
        exact .through hthrough (List.forall_mem_append.2 ⟨hspares, by simpa using hspare⟩)
      | change hended hchanges => exact .changed hended rfl hspares hrunning hchanges
    | through hthrough hspares =>
      obtain ⟨hended, hspare⟩ := spares_of_through hthrough hstep
      exact .through (by rw [hended]; rfl)
        (List.forall_mem_append.2 ⟨hspares, by simpa using hspare⟩)
    | changed hended => exact absurd hstep (unitStep_of_ended hended)

/-- Nobody else touches the destination as long as the unit is on its way. -/
inductive Alone (part : σ → MemoryStore) (s : MemoryStore) : List (Leg σ) → MemoryStore → Prop
  | new : Alone part s [] s
  | step {legs : List (Leg σ)} {x : Leg σ} (h : Alone part s legs (part x.found.stores)) :
      Alone part s (legs ++ [x]) (part x.left.stores)

variable {s s' : MemoryStore}

lemma Alone.spared (h : Alone part s legs s') (hspares : ∀ x ∈ legs, Spares part x) : s' = s := by
  induction h with
  | new => rfl
  | step _ ih =>
    obtain ⟨hbefore, hlast⟩ := List.forall_mem_append.1 hspares
    exact (hlast _ (List.mem_singleton_self _)).same.trans (ih hbefore)

/-- Before every step that is spared, the destination is what it was at first. -/
lemma Alone.found (h : Alone part s legs s') (hspares : ∀ x ∈ legs, Spares part x) :
    ∀ x ∈ legs, part x.found.stores = s := by
  induction h with
  | new => simp
  | step hbefore ih =>
    obtain ⟨hspared, -⟩ := List.forall_mem_append.1 hspares
    refine List.forall_mem_append.2 ⟨ih hspared, fun x hx => ?_⟩
    obtain rfl := List.mem_singleton.1 hx
    exact hbefore.spared hspared

lemma Alone.init {x : Leg σ} (h : Alone part s (legs ++ [x]) s') :
    Alone part s legs (part x.found.stores) ∧ s' = part x.left.stores := by
  generalize hlegs : legs ++ [x] = all at h
  cases h with
  | new => simp at hlegs
  | step hbefore =>
    obtain ⟨rfl, hx⟩ := List.append_inj' hlegs rfl
    obtain rfl := List.head_eq_of_cons_eq hx
    exact ⟨hbefore, rfl⟩

lemma Alone.last {x : Leg σ} (h : Alone part s (legs ++ [x]) s')
    (hspares : ∀ y ∈ legs, Spares part y) : part x.found.stores = s ∧ s' = part x.left.stores :=
  ⟨h.init.1.spared hspares, h.init.2⟩

/-- What is certain of the destination of a task, a memory store. -/
structure Atomic (t : Task σ) (part : σ → MemoryStore) : Prop where
  /-- A unit that ends with an error, of any kind and in any of its steps, has left the destination
  in every step as it found it. -/
  failed : ∀ {clean p legs j}, t.Errand clean p legs j →
    (∃ e, ∃ x ∈ legs, .ended p (.error e) ∈ x.events) →
    ∀ x ∈ legs, part x.left.stores = part x.found.stores
  /-- A unit that ends well has made no change at all, or one change in its last step. -/
  done : ∀ {clean p legs j}, t.Errand clean p legs j →
    (∃ x ∈ legs, .ended p (.ok ()) ∈ x.events) →
    (∀ x ∈ legs, Spares part x) ∨
      ∃ earlier last c, legs = earlier ++ [last] ∧ (∀ x ∈ earlier, Spares part x) ∧
        Changes part p c last
  /-- If nobody else touches the destination, the one is as it was before a unit that fails. -/
  failedAlone : ∀ {clean p legs j s s'}, t.Errand clean p legs j → Alone part s legs s' →
    (∃ e, ∃ x ∈ legs, .ended p (.error e) ∈ x.events) → s' = s
  /-- If nobody else touches the destination, the one is as it was before a unit that ends well
  without a change, and otherwise differs by this change. -/
  doneAlone : ∀ {clean p legs j s s'}, t.Errand clean p legs j → Alone part s legs s' →
    (∃ x ∈ legs, .ended p (.ok ()) ∈ x.events) →
    (∀ x ∈ legs, ∀ c, .answered p c (.ok true) ∉ x.events) ∧ s' = s ∨
      ∃ c, (∃ x ∈ legs, .answered p c (.ok true) ∈ x.events) ∧
        ∃ now, MemoryStore.Took c now s s'
  /-- A store that is asked to make any change makes it as a whole or not at all, also when the
  change is carried out in place. -/
  change : ∀ (s : MemoryStore) c now,
    (∃ e, s.apply c now = .error e ∧ (MemoryStore.perform c now).run s = (.error e, s)) ∨
      ∃ s', s.apply c now = .ok s' ∧ (MemoryStore.perform c now).run s = (.ok (), s') ∧
        MemoryStore.Took c now s s'
  /-- What does not fit the entries is refused. -/
  misfit : ∀ (s : MemoryStore) c now, MemoryStore.Misfit c s.entries →
    ∃ e, s.apply c now = .error e ∧ (MemoryStore.perform c now).run s = (.error e, s)

/-- A unit that fails has only made steps that spare the destination. -/
lemma Trodden.spares_of_error (h : Trodden part p legs j) {e : SyncError} {x : Leg σ}
    (hx : x ∈ legs) (hfailed : .ended p (.error e) ∈ x.events) : ∀ x ∈ legs, Spares part x := by
  cases h with
  | under _ _ hrunning => exact absurd hfailed (hrunning x hx _)
  | through _ hspares => exact hspares
  | changed _ hlegs _ hrunning hchanges =>
    subst hlegs
    rcases List.mem_append.1 hx with hx | hx
    · exact absurd hfailed (hrunning x hx _)
    · obtain rfl := List.mem_singleton.1 hx
      simp [hchanges.events] at hfailed

lemma Trodden.cases_of_ok (h : Trodden part p legs j) {x : Leg σ} (hx : x ∈ legs)
    (hdone : .ended p (.ok ()) ∈ x.events) :
    (∀ x ∈ legs, Spares part x) ∨
      ∃ earlier last c, legs = earlier ++ [last] ∧ (∀ x ∈ earlier, Spares part x) ∧
        Changes part p c last := by
  cases h with
  | under _ _ hrunning => exact absurd hdone (hrunning x hx _)
  | through _ hspares => exact Or.inl hspares
  | changed _ hlegs hspares _ hchanges => exact Or.inr ⟨_, _, _, hlegs, hspares, hchanges⟩

/-- **A unit changes the destination as a whole or not at all**, whatever the source, the policy,
the evaluator, and the pivot. -/
theorem atomic_of_backed (h : t.Backed part) : t.Atomic part where
  failed := by
    rintro clean p legs j herrand ⟨e, x, hx, hfailed⟩ y hy
    exact ((herrand.trodden h).spares_of_error hx hfailed y hy).same
  done := by
    rintro clean p legs j herrand ⟨x, hx, hdone⟩
    exact (herrand.trodden h).cases_of_ok hx hdone
  failedAlone := by
    rintro clean p legs j s s' herrand halone ⟨e, x, hx, hfailed⟩
    exact halone.spared ((herrand.trodden h).spares_of_error hx hfailed)
  doneAlone := by
    rintro clean p legs j s s' herrand halone ⟨x, hx, hdone⟩
    rcases (herrand.trodden h).cases_of_ok hx hdone with
      hspares | ⟨earlier, last, c, rfl, hspares, hchanges⟩
    · exact Or.inl ⟨fun y hy => (hspares y hy).untaken p, halone.spared hspares⟩
    · obtain ⟨rfl, rfl⟩ := halone.last hspares
      exact Or.inr ⟨c, ⟨last, by simp, by simp [hchanges.events]⟩, hchanges.took⟩
  change s c now := by
    cases happly : s.apply c now with
    | error e => exact Or.inl ⟨e, rfl, by rw [MemoryStore.run_perform, happly]⟩
    | ok s' =>
      exact Or.inr ⟨s', rfl, by rw [MemoryStore.run_perform, happly],
        MemoryStore.took_of_apply happly⟩
  misfit s c now hmisfit := by
    obtain ⟨e, happly⟩ := MemoryStore.exists_error_of_refused now (Or.inr hmisfit)
    exact ⟨e, happly, by rw [MemoryStore.run_perform, happly]⟩

/-! ### Two guests, of whom one has the name of another -/

/-- A unit makes so many steps, and nobody else does anything. -/
def attend (t : Task σ) (clean : Bool) :
    Nat → Job → Ledger → World σ → List (Leg σ) × Job × World σ
  | 0, j, _, w => ([], j, w)
  | n + 1, j, l, w =>
    match t.unitStep clean 0 j l w with
    | (.running j', l', w') =>
      let rest := attend t clean n j' l' w'
      (⟨w, t.unitEvents clean 0 j l w, w'⟩ :: rest.1, rest.2)
    | _ => ([], j, w)

lemma Errand.attend (h : t.Errand clean p legs j) (n : Nat) (l : Ledger) (w : World σ) :
    t.Errand clean p (legs ++ (t.attend clean n j l w).1) (t.attend clean n j l w).2.1 := by
  induction n generalizing legs j l w with
  | zero => simpa [Task.attend] using h
  | succ n ih =>
    simp only [Task.attend]
    split
    next j' l' w' hstep => simpa using ih (h.step hstep) l' w'
    next => simpa using h

lemma Alone.attend (h : Alone part s legs (part w.stores)) (t : Task σ) (clean : Bool) (n : Nat)
    (j : Job) (l : Ledger) :
    Alone part s (legs ++ (t.attend clean n j l w).1)
      (part (t.attend clean n j l w).2.2.stores) := by
  induction n generalizing legs j l w with
  | zero => simpa [Task.attend] using h
  | succ n ih =>
    simp only [Task.attend]
    split
    next j' l' w' _ =>
      have hstep : Alone part s (legs ++ [⟨w, t.unitEvents clean 0 j l w, w'⟩]) (part w'.stores) :=
        .step h
      simpa using ih hstep j' l'
    next => simpa using h

/-- How the unit of a pivot has ended. -/
def outcome? : Event → Option (Pivot × Except SyncError Unit)
  | .ended p result => some (p, result)
  | _ => none

lemma exists_ended {r : Except SyncError Unit}
    (h : (p, r) ∈ legs.flatMap fun x => x.events.filterMap outcome?) :
    ∃ x ∈ legs, .ended p r ∈ x.events := by
  obtain ⟨x, hx, hmem⟩ := List.mem_flatMap.1 h
  obtain ⟨event, hevent, houtcome⟩ := List.mem_filterMap.1 hmem
  cases event with
  | ended q result =>
    obtain ⟨rfl, rfl⟩ := Prod.mk.inj (Option.some.inj houtcome)
    exact ⟨x, hx, hevent⟩
  | _ => simp [outcome?] at houtcome

def invited : MemoryStore :=
  (MemoryStore.new "invited" "mail").insertAll
    [(Entity.putAll (.named "cn=Ann") [("mail", [.string "ann@x"])], ⟨0⟩),
      (Entity.putAll (.named "cn=Bob") [("mail", [.string "bob@x"])], ⟨0⟩)]

/-- Another Ann has come. -/
def admitted : MemoryStore :=
  (MemoryStore.new "admitted" "mail").insertAll
    [(Entity.putAll (.named "cn=Ann") [("mail", [.string "ann@y"])], ⟨0⟩)]

def admission : Task (MemoryStore × MemoryStore) :=
  ⟨TaskConfig.new "admission", (MemoryStore.adapter "invited" true).first,
    (MemoryStore.adapter "admitted" true).second, .ofTable []⟩

def ann : Pivot := invited.pivotFor "cn=Ann" "ann@x"

def bob : Pivot := invited.pivotFor "cn=Bob" "bob@x"

/-- The unit of an invited guest, on its own. -/
def welcome (p : Pivot) :
    List (Leg (MemoryStore × MemoryStore)) × Job × World (MemoryStore × MemoryStore) :=
  admission.attend false 7 (.new p) (.new none) ⟨(invited, admitted), [], [], ⟨0⟩⟩

theorem atomic_of_admission :
    admission.Atomic Prod.snd ∧ (welcome ann).2.2.stores.2 = admitted ∧
      ∃ c now, MemoryStore.Took c now admitted (welcome bob).2.2.stores.2 := by
  have hatomic : admission.Atomic Prod.snd :=
    atomic_of_backed (backed_second _ (MemoryStore.adapter "invited" true) _ _ _)
  have herrand (p : Pivot) : admission.Errand false p (welcome p).1 (welcome p).2.1 :=
    Errand.new.attend 7 (.new none) ⟨(invited, admitted), [], [], ⟨0⟩⟩
  have halone (p : Pivot) : Alone Prod.snd admitted (welcome p).1 (welcome p).2.2.stores.2 :=
    Alone.attend (w := ⟨(invited, admitted), [], [], ⟨0⟩⟩) .new admission false 7 (.new p)
      (.new none)
  refine ⟨hatomic, hatomic.failedAlone (herrand ann) (halone ann)
    ⟨.adapter "admitted" (.objectExists "cn=Ann"), exists_ended (by decide +kernel)⟩, ?_⟩
  rcases hatomic.doneAlone (herrand bob) (halone bob) (exists_ended (by decide +kernel)) with
    ⟨-, hsame⟩ | ⟨c, -, now, htook⟩
  · have hnew : (welcome bob).2.2.stores.2.entries.contains "cn=bob" = true := by decide +kernel
    rw [hsame] at hnew
    exact absurd hnew (by decide +kernel)
  · exact ⟨c, now, htook⟩

end Task

end StoreSync
