import Mathlib.Data.List.Basic
import StoreSync.Files.Folder

/-!
# Files of a folder

A write makes and removes no directory (`Folder.alike_of_write`), so that every path leads where it
led before.  What was written can be read (`Folder.read_of_write`), and the files that other paths
lead to are left alone (`Folder.read_of_write_of_apart`).
-/

namespace StoreSync.Folder

variable {f f' : Folder} {path other text : String} {place q : List String}

/-- Two folders have the same directories. -/
def Alike (f f' : Folder) : Prop := ∀ p, f.at? p = some none ↔ f'.at? p = some none

lemma Alike.refl (f : Folder) : f.Alike f := fun _ => Iff.rfl

/-- Following a name only asks whether the place is a directory. -/
lemma follow_eq_ok_iff {p : List String} {name : String} :
    f.follow p name = .ok q ↔
      f.at? p = some none ∧ (name ≠ ".." ∧ q = name :: p ∨ name = ".." ∧ p.tail? = some q) := by
  unfold follow
  cases hat : f.at? p with
  | none => simp
  | some there =>
    cases there with
    | some text => simp
    | none =>
      by_cases hname : name = ".."
      · cases p <;> simp [hname, eq_comm]
      · simp [hname, eq_comm]

/-- Paths lead to the same places in folders with the same directories. -/
lemma Alike.resolve_eq_ok_iff (h : f.Alike f') :
    f.resolve path = .ok q ↔ f'.resolve path = .ok q := by
  have hfollow : ∀ p name q, f.follow p name = .ok q ↔ f'.follow p name = .ok q := by
    intro p name q
    rw [follow_eq_ok_iff, follow_eq_ok_iff, h p]
  have hfold : ∀ (names : List String) (p q : List String),
      names.foldlM f.follow p = .ok q ↔ names.foldlM f'.follow p = .ok q := by
    intro names
    induction names with
    | nil => intro p q; rfl
    | cons name rest ih =>
      intro p q
      rw [List.foldlM_cons, List.foldlM_cons]
      constructor
      · intro hq
        cases hstep : f.follow p name with
        | error e => simp [hstep, bind, Except.bind] at hq
        | ok p' =>
          rw [(hfollow p name p').1 hstep]
          rw [hstep] at hq
          exact (ih p' q).1 hq
      · intro hq
        cases hstep : f'.follow p name with
        | error e => simp [hstep, bind, Except.bind] at hq
        | ok p' =>
          rw [(hfollow p name p').2 hstep]
          rw [hstep] at hq
          exact (ih p' q).2 hq
  unfold resolve
  split
  · simp
  · exact hfold _ _ _

/-! ## Writing -/

/-- What a write does. -/
lemma exists_of_write (h : f.write path text = .ok f') :
    ∃ place, f.resolve path = .ok place ∧ f.at? place ≠ some none ∧
      f' = { f with contents := f.contents.insert (key place) (some text) } := by
  unfold write at h
  cases hplace : f.resolve path with
  | error e => simp [hplace, bind, Except.bind] at h
  | ok place =>
    refine ⟨place, rfl, ?_⟩
    simp only [hplace, bind, Except.bind] at h
    split at h
    · simp [throw, throwThe, MonadExceptOf.throw] at h
    next hnot =>
      exact ⟨hnot, (Except.ok.inj h).symm⟩

lemma at?_insert (f : Folder) (place : List String) (text : String) (p : List String) :
    ({ f with contents := f.contents.insert (key place) (some text) } : Folder).at? p =
      if p ≠ [] ∧ key place = key p then some (some text) else f.at? p := by
  cases p with
  | nil => simp [at?]
  | cons name rest =>
    show (f.contents.insert (key place) (some text)).get? _ = _
    rw [TextMap.get?_insert]
    simp [at?]

lemma ne_nil_of_at? (h : f.at? place ≠ some none) : place ≠ [] := by
  rintro rfl
  exact h rfl

/-- A write makes and removes no directory. -/
lemma alike_of_write (h : f.write path text = .ok f') : f.Alike f' := by
  obtain ⟨place, -, hfile, rfl⟩ := exists_of_write h
  intro p
  rw [at?_insert]
  split
  next hsame =>
    have hat : f.at? p = f.at? place := by
      obtain ⟨name, rest, rfl⟩ := List.exists_cons_of_ne_nil hsame.1
      obtain ⟨name', rest', rfl⟩ := List.exists_cons_of_ne_nil (ne_nil_of_at? hfile)
      simp only [at?, hsame.2]
    simp [hat, hfile]
  · rfl

lemma time_of_write (h : f.write path text = .ok f') : f'.time = f.time := by
  obtain ⟨place, -, -, rfl⟩ := exists_of_write h
  rfl

/-- What was written can be read. -/
lemma read_of_write (h : f.write path text = .ok f') :
    f'.holds path = true ∧ f'.read path = .ok text := by
  have halike := alike_of_write h
  obtain ⟨place, hplace, hfile, rfl⟩ := exists_of_write h
  have hthere := halike.resolve_eq_ok_iff.1 hplace
  have hat := at?_insert f place text place
  rw [if_pos ⟨ne_nil_of_at? hfile, rfl⟩] at hat
  constructor
  · simp [holds, hthere, hat]
  · simp [read, hthere, hat, bind, Except.bind, pure, Except.pure]

/-- Two paths lead to different files. -/
def Apart (f : Folder) (path other : String) : Prop :=
  ∀ p q, f.resolve path = .ok p → f.resolve other = .ok q → key p ≠ key q

lemma Alike.apart (h : f.Alike f') (hapart : f.Apart path other) : f'.Apart path other :=
  fun p q hp hq => hapart p q (h.resolve_eq_ok_iff.2 hp) (h.resolve_eq_ok_iff.2 hq)

/-- A write leaves the other files alone. -/
lemma read_of_write_of_apart (h : f.write path text = .ok f') (hapart : f.Apart path other) :
    f'.holds other = f.holds other ∧ (f.holds other = true → f'.read other = f.read other) := by
  have halike := alike_of_write h
  obtain ⟨place, hplace, hfile, rfl⟩ := exists_of_write h
  set f' : Folder := { f with contents := f.contents.insert (key place) (some text) } with hf'
  cases hother : f.resolve other with
  | ok q =>
    have hother' := halike.resolve_eq_ok_iff.1 hother
    have hat : f'.at? q = f.at? q := by
      rw [hf', at?_insert, if_neg]
      exact fun hsame => hapart place q hplace hother hsame.2
    exact ⟨by simp [holds, hother, hother', hat], fun _ => by
      simp [read, hother, hother', hat, bind, Except.bind]⟩
  | error e =>
    have hholds : f.holds other = false := by simp [holds, hother]
    refine ⟨?_, by simp [hholds]⟩
    rw [hholds, holds]
    cases hother' : f'.resolve other with
    | error e' => rfl
    | ok q =>
      rw [halike.resolve_eq_ok_iff.2 hother'] at hother
      simp at hother

end StoreSync.Folder
