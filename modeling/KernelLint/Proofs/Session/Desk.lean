import KernelLint.Proofs.Session.Inspection

/-!
# Working with one session

A program is edited while one session inspects it, lists its tasks and takes subscriptions. At every
moment the session serves the program as it is. When the registry was empty at first, it holds at
the revision of the program exactly the texts that are flagged from scratch in the files inspected
since the program last changed: an edit that counts leaves the revision of the registry behind, and
the next inspection, which begins with a look at the revision, drops what is older.
-/

namespace KernelLint

/-- A step of the work with a program and a session. -/
inductive Job where
  | edit (e : Edit)
  | inspect (file : FileId)
  | inspectAll
  | listTasks (file : FileId)
  | subscribe
  | unsubscribe (number : Nat)

/-- The files that a job inspects. -/
def Job.files (p : Program) : Job → List FileId
  | .inspect file => [file]
  | .inspectAll => p.projectFiles.map (·.id)
  | .listTasks file => [file]
  | _ => []

/-- Does the job inspect files? -/
def Job.isInspection : Job → Bool
  | .inspect _ => true
  | .inspectAll => true
  | .listTasks _ => true
  | _ => false

/-- A program with the session that inspects it. -/
structure Desk where
  program : Program
  session : Session
  /-- The files inspected since the program last changed. -/
  seen : List FileId := []

namespace Desk

/-- A program with a session that was not used yet. -/
def start (c : Config) (registry : Registry) (p : Program) : Desk :=
  { program := p, session := .start c registry }

/-- Change the registry that the session shares with others. -/
def onRegistry (d : Desk) (change : Registry → Registry) : Desk :=
  { d with session := { d.session with registry := change d.session.registry } }

def step (d : Desk) : Job → Desk
  | .edit e =>
    let p := d.program.edit e
    { d with program := p, seen := if p.revision = d.program.revision then d.seen else [] }
  | .inspect file =>
    { d with session := (d.session.inspectFile d.program file).2, seen := d.seen ++ [file] }
  | .inspectAll =>
    { d with session := (d.session.inspectProgram d.program).2
             seen := d.seen ++ d.program.projectFiles.map (·.id) }
  | .listTasks file =>
    { d with session := (d.session.runnableTasks d.program file).2, seen := d.seen ++ [file] }
  | .subscribe => d.onRegistry (·.subscribe.2)
  | .unsubscribe number => d.onRegistry (·.unsubscribe number |>.2)

/-- Steps one after another. -/
def run (d : Desk) (jobs : List Job) : Desk := jobs.foldl step d

/-- Inspect files one after another. -/
def inspectFiles (d : Desk) (files : List FileId) : Desk :=
  { d with session := (Session.inspectFiles d.program files d.session).2, seen := d.seen ++ files }

theorem inspectFiles_cons (d : Desk) (file : FileId) (rest : List FileId) :
    d.inspectFiles (file :: rest) = (d.step (.inspect file)).inspectFiles rest := by
  simp only [inspectFiles, step, List.append_assoc, List.singleton_append]
  rfl

theorem step_inspection (d : Desk) {job : Job} (h : job.isInspection) :
    d.step job = d.inspectFiles (job.files d.program) := by
  cases job with
  | inspect file => rfl
  | inspectAll => rfl
  | listTasks file => rfl
  | edit e => cases h
  | subscribe => cases h
  | unsubscribe number => cases h

/-- The change is about who is told and nothing else. -/
def KeepsTexts (change : Registry → Registry) : Prop :=
  ∀ r, (change r).texts = r.texts ∧ (change r).revision = r.revision ∧ (change r).react = r.react

/-- What a step does: it inspects files, it edits the program, or it changes who is told. -/
theorem step_cases (d : Desk) (job : Job) :
    (∃ files, d.step job = d.inspectFiles files) ∨ (∃ e, job = .edit e) ∨
      ∃ change, KeepsTexts change ∧ d.step job = d.onRegistry change := by
  cases job with
  | edit e => exact .inr (.inl ⟨e, rfl⟩)
  | subscribe => exact .inr (.inr ⟨(·.subscribe.2), fun _ => ⟨rfl, rfl, rfl⟩, rfl⟩)
  | unsubscribe number =>
      exact .inr (.inr ⟨(·.unsubscribe number |>.2), fun _ => ⟨rfl, rfl, rfl⟩, rfl⟩)
  | inspect file => exact .inl ⟨_, d.step_inspection rfl⟩
  | inspectAll => exact .inl ⟨_, d.step_inspection rfl⟩
  | listTasks file => exact .inl ⟨_, d.step_inspection rfl⟩

theorem inspectFiles_nil (d : Desk) : d.inspectFiles [] = d := by
  simp [inspectFiles, Session.inspectFiles]

theorem inspectFiles_keeps {P : Desk → Prop} (hinspect : ∀ d file, P d → P (d.step (.inspect file)))
    {d : Desk} (h : P d) (files : List FileId) : P (d.inspectFiles files) := by
  induction files generalizing d with
  | nil => rwa [inspectFiles_nil]
  | cons file rest ih =>
    rw [inspectFiles_cons]
    exact ih (hinspect d file h)

theorem run_keeps {P : Desk → Prop} (hinspect : ∀ d file, P d → P (d.step (.inspect file)))
    (hedit : ∀ d e, P d → P (d.step (.edit e)))
    (hregistry : ∀ d change, KeepsTexts change → P d → P (d.onRegistry change))
    {d : Desk} (h : P d) (jobs : List Job) : P (d.run jobs) := by
  induction jobs generalizing d with
  | nil => exact h
  | cons job rest ih =>
    refine ih ?_
    rcases d.step_cases job with ⟨files, heq⟩ | ⟨e, rfl⟩ | ⟨change, hkeeps, heq⟩
    · rw [heq]
      exact inspectFiles_keeps hinspect h files
    · exact hedit d e h
    · rw [heq]
      exact hregistry d change hkeeps h

theorem react_run (d : Desk) (jobs : List Job) :
    (d.run jobs).session.registry.react = d.session.registry.react :=
  run_keeps (P := fun d' => d'.session.registry.react = d.session.registry.react)
    (fun d' file h => (d'.session.react_inspectFile d'.program file).trans h) (fun _ _ h => h)
    (fun _ _ hkeeps h => (hkeeps _).2.2.trans h) rfl jobs

/-! ## Nothing but inspections -/

theorem inspectFiles_inspectFiles (d : Desk) (files more : List FileId) :
    (d.inspectFiles files).inspectFiles more = d.inspectFiles (files ++ more) := by
  induction files generalizing d with
  | nil => rw [inspectFiles_nil, List.nil_append]
  | cons file rest ih => rw [inspectFiles_cons, ih, List.cons_append, inspectFiles_cons]

theorem run_inspections (d : Desk) {jobs : List Job} (h : ∀ job ∈ jobs, job.isInspection) :
    d.run jobs = d.inspectFiles (jobs.flatMap (·.files d.program)) := by
  induction jobs generalizing d with
  | nil => simp [run, inspectFiles, Session.inspectFiles]
  | cons job rest ih =>
    have hrest := ih (d.step job) fun x hx => h x (by simp [hx])
    rw [d.step_inspection (h job (by simp))] at hrest
    calc d.run (job :: rest) = (d.step job).run rest := rfl
      _ = (d.inspectFiles (job.files d.program)).run rest := by
        rw [d.step_inspection (h job (by simp))]
      _ = (d.inspectFiles (job.files d.program)).inspectFiles (rest.flatMap (·.files d.program)) :=
        hrest
      _ = _ := by rw [inspectFiles_inspectFiles, List.flatMap_cons]

/-! ## The session serves the program -/

variable {c : Config} {d : Desk}

theorem serves_inspectFiles (h : d.session.Serves c d.program) (files : List FileId) :
    (d.inspectFiles files).session.Serves c d.program := by
  induction files generalizing d with
  | nil => exact h
  | cons file rest ih =>
    rw [inspectFiles_cons]
    exact ih (h.inspectFile file)

theorem serves_step (h : d.session.Serves c d.program) (job : Job) :
    (d.step job).session.Serves c (d.step job).program := by
  rcases d.step_cases job with ⟨files, heq⟩ | ⟨e, rfl⟩ | ⟨change, -, heq⟩
  · rw [heq]
    exact serves_inspectFiles h files
  · exact ⟨h.config_eq, h.rules_eq, h.trusted_eq, h.depth_eq, h.coherent.edit e⟩
  · rw [heq]
    exact h.withRegistry _

theorem serves_run (h : d.session.Serves c d.program) (jobs : List Job) :
    (d.run jobs).session.Serves c (d.run jobs).program := by
  induction jobs generalizing d with
  | nil => exact h
  | cons job rest ih => exact ih (serves_step h job)

/-! ## The registry follows the inspections -/

/-- The session serves the program, and its registry, to which nobody does anything else, holds what
was flagged in the files seen. -/
structure Tracks (c : Config) (d : Desk) : Prop where
  serves : d.session.Serves c d.program
  passive : d.session.registry.Passive
  revision_le : d.session.registry.revision ≤ d.program.revision
  current : d.seen ≠ [] → d.session.registry.revision = d.program.revision
  mem_texts : d.session.registry.revision = d.program.revision → ∀ text,
    text ∈ d.session.registry.texts ↔ ∃ file ∈ d.seen, text ∈ Session.flaggedTexts c d.program file

theorem tracks_start (c : Config) (p : Program) {registry : Registry}
    (hpassive : registry.Passive) (hempty : registry.texts = [])
    (hle : registry.revision ≤ p.revision) : Tracks c (start c registry p) := by
  refine ⟨Session.serves_start c registry p, hpassive, hle, fun h => absurd rfl h, fun _ text => ?_⟩
  simp [start, Session.start, hempty]

theorem Tracks.mem_texts_sync (h : Tracks c d) {text : String} :
    text ∈ (d.session.registry.sync d.program.revision).2.texts ↔
      ∃ file ∈ d.seen, text ∈ Session.flaggedTexts c d.program file := by
  by_cases hrev : d.session.registry.revision = d.program.revision
  · rw [Registry.sync_of_eq hrev]
    exact h.mem_texts hrev text
  · -- the registry is behind, so nothing was inspected since the program changed
    have hseen : d.seen = [] := by
      by_contra hsome
      exact hrev (h.current hsome)
    simp [Registry.texts_sync_of_ne hrev, hseen]

theorem Tracks.inspect (h : Tracks c d) (file : FileId) : Tracks c (d.step (.inspect file)) := by
  have hrev : (d.step (.inspect file)).session.registry.revision = d.program.revision :=
    h.serves.revision_inspectFile h.passive file
  have hpassive := h.passive.of_react (d.session.react_inspectFile d.program file)
  refine ⟨h.serves.inspectFile file, hpassive, Nat.le_of_eq hrev, fun _ => hrev, fun _ text => ?_⟩
  have hadded : text ∈ (d.step (.inspect file)).session.registry.texts ↔ _ :=
    h.serves.mem_texts_inspectFile h.passive
  rw [hadded, h.mem_texts_sync]
  simp only [step, List.mem_append, List.mem_singleton, or_and_right, exists_or, exists_eq_left]

theorem Tracks.edit (h : Tracks c d) (e : Edit) : Tracks c (d.step (.edit e)) := by
  have hserves := serves_step h.serves (.edit e)
  rcases d.program.edit_eq_or_revision_edit e with hsame | hnext
  · have hdesk : d.step (.edit e) = d := by simp [step, hsame]
    rw [hdesk]
    exact h
  · have hle := h.revision_le
    have hseen : (d.step (.edit e)).seen = [] := by simp [step, hnext]
    have hbehind : d.session.registry.revision < (d.program.edit e).revision := by omega
    refine ⟨hserves, h.passive, Nat.le_of_lt hbehind, fun hsome => absurd hseen hsome,
      fun hrev => ?_⟩
    exact absurd hrev (Nat.ne_of_lt hbehind)

theorem Tracks.onRegistry (h : Tracks c d) {change : Registry → Registry}
    (hkeeps : KeepsTexts change) : Tracks c (d.onRegistry change) := by
  obtain ⟨htexts, hrevision, hreact⟩ := hkeeps d.session.registry
  refine ⟨h.serves.withRegistry _, h.passive.of_react hreact, ?_, ?_, ?_⟩ <;>
    simp only [Desk.onRegistry, htexts, hrevision]
  · exact h.revision_le
  · exact h.current
  · exact h.mem_texts

/-- **The registry follows the inspections**, over whole runs. -/
theorem Tracks.run (h : Tracks c d) (jobs : List Job) : Tracks c (d.run jobs) :=
  run_keeps (fun _ file h => h.inspect file) (fun _ e h => h.edit e)
    (fun _ _ hkeeps h => h.onRegistry hkeeps) h jobs

end Desk

end KernelLint
