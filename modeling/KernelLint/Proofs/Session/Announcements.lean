import KernelLint.Proofs.Session.Desk

/-!
# What is flagged and announced over a run

The edits that count cut a run into stretches during which the program stays as it is. In each
stretch the registry gathers, file after file, the texts that are flagged from scratch, and whoever
is subscribed is told once for every text when it comes for the first time. The registry is emptied
late, by the first inspection of the next stretch; so the invariant speaks of the registry as this
inspection will see it.
-/

namespace KernelLint

namespace Session

variable {s : Session} {c : Config} {p : Program}

theorem find?_flaggedEntries (c : Config) (p : Program) (file : FileId) (text : String) :
    (flaggedEntries c p file).find? (·.1 = text) =
      if text ∈ flaggedTexts c p file then some (text, ownerOf p file) else none := by
  have htest : (flaggedEntries c p file).find? (·.1 = text) =
      ((flaggedTexts c p file).find? (· = text)).map fun text => (text, ownerOf p file) :=
    List.find?_map
  rw [htest]
  cases hfind : (flaggedTexts c p file).find? (· = text) with
  | none =>
    have hnot : text ∉ flaggedTexts c p file :=
      fun hmem => by simpa using List.find?_eq_none.mp hfind text hmem
    rw [if_neg hnot]
    rfl
  | some x =>
    have hx : x = text := by simpa using List.find?_some hfind
    rw [if_pos (hx ▸ List.mem_of_find?_eq_some hfind), hx]
    rfl

end Session

/-! ## Stretches -/

/-- A program and the files inspected, in order, while it stays as it is. -/
structure Stretch where
  program : Program
  files : List FileId

namespace Stretch

variable {c : Config} {t : Stretch}

/-- What is told during a stretch: each text that is flagged in its files, with the owner it is
first flagged under. -/
def told (c : Config) (t : Stretch) : List (String × Owner) :=
  Registry.newEntries [] (t.files.flatMap (Session.flaggedEntries c t.program))

@[simp] theorem told_nil (c : Config) (p : Program) : told c ⟨p, []⟩ = [] := rfl

theorem told_concat (c : Config) (p : Program) (files : List FileId) (file : FileId) :
    told c ⟨p, files ++ [file]⟩ = told c ⟨p, files⟩ ++
      Registry.newEntries ((told c ⟨p, files⟩).map (·.1)) (Session.flaggedEntries c p file) := by
  simp only [told, List.flatMap_append, List.flatMap_singleton, Registry.newEntries_append,
    List.nil_append]

theorem nodup_told (c : Config) (t : Stretch) : ((t.told c).map (·.1)).Nodup := by
  have hnodup := Registry.nodup_newEntries
      (l := t.files.flatMap (Session.flaggedEntries c t.program)) List.nodup_nil
  simpa [told] using hnodup

theorem find?_flagged (c : Config) (p : Program) (files : List FileId) (text : String) :
    (files.flatMap (Session.flaggedEntries c p)).find? (·.1 = text) =
      (files.find? (text ∈ Session.flaggedTexts c p ·)).map fun file =>
        (text, Session.ownerOf p file) := by
  induction files with
  | nil => rfl
  | cons file rest ih =>
    rw [List.flatMap_cons, List.find?_append, ih, Session.find?_flaggedEntries]
    by_cases hmem : text ∈ Session.flaggedTexts c p file
    · simp [hmem]
    · simp [hmem]

theorem mem_told {text : String} {owner : Owner} : (text, owner) ∈ t.told c ↔
    (t.files.find? (text ∈ Session.flaggedTexts c t.program ·)).map (Session.ownerOf t.program) =
      some owner := by
  rw [told, Registry.mem_newEntries, find?_flagged]
  cases t.files.find? (text ∈ Session.flaggedTexts c t.program ·) <;> simp

theorem mem_texts_told {text : String} :
    text ∈ (t.told c).map (·.1) ↔
      ∃ file ∈ t.files, text ∈ Session.flaggedTexts c t.program file := by
  constructor
  · intro htext
    obtain ⟨⟨text, owner⟩, htold, rfl⟩ := List.mem_map.mp htext
    obtain ⟨file, hfirst, -⟩ := Option.map_eq_some_iff.mp (mem_told.mp htold)
    exact ⟨file, List.mem_of_find?_eq_some hfirst, by simpa using List.find?_some hfirst⟩
  · rintro ⟨file, hfile, hflag⟩
    have hsome : (t.files.find? (text ∈ Session.flaggedTexts c t.program ·)).isSome := by
      rw [List.find?_isSome]
      exact ⟨file, hfile, by simpa using hflag⟩
    obtain ⟨first, hfirst⟩ := Option.isSome_iff_exists.mp hsome
    exact List.mem_map.mpr ⟨(text, _), mem_told.mpr (by rw [hfirst]; rfl), rfl⟩

end Stretch

/-- The program after a job. -/
def Job.edited (p : Program) : Job → Program
  | .edit e => p.edit e
  | _ => p

/-- The stretches of a run; in the first one, some files may have been inspected before. -/
def stretches (p : Program) (seen : List FileId) : List Job → List Stretch
  | [] => [⟨p, seen⟩]
  | job :: rest =>
    if (job.edited p).revision = p.revision then stretches (job.edited p) (seen ++ job.files p) rest
    else ⟨p, seen⟩ :: stretches (job.edited p) [] rest

namespace Desk

variable {c : Config} {d : Desk}

/-- The stretch that a run is in. -/
def stretch (d : Desk) : Stretch := ⟨d.program, d.seen⟩

theorem stretch_step (d : Desk) (job : Job) : (d.step job).stretch =
    ⟨job.edited d.program, if (job.edited d.program).revision = d.program.revision then
      d.seen ++ job.files d.program else []⟩ := by
  cases job <;> simp [stretch, step, onRegistry, Job.edited, Job.files]

/-! ## The registry as the next inspection will see it -/

/-- The session serves the program, and its registry, once it is moved to the revision of the
program, holds what was told in the present stretch. -/
structure Gathers (c : Config) (d : Desk) : Prop where
  serves : d.session.Serves c d.program
  passive : d.session.registry.Passive
  /-- No revision to come has texts already. -/
  behind : d.session.registry.revision ≤ d.program.revision ∨ d.session.registry.texts = []
  texts_sync : (d.session.registry.sync d.program.revision).2.texts = (d.stretch.told c).map (·.1)

variable {p : Program} {s : Session}

theorem gathers_of_empty (hserves : s.Serves c p) (hpassive : s.registry.Passive)
    (hempty : s.registry.texts = []) : Gathers c { program := p, session := s } :=
  ⟨hserves, hpassive, .inr hempty, Registry.texts_sync_of_empty hempty _⟩

theorem Gathers.revision_inspect (h : Gathers c d) (file : FileId) :
    (d.step (.inspect file)).session.registry.revision
      = (d.step (.inspect file)).program.revision :=
  h.serves.revision_inspectFile h.passive file

theorem Gathers.inspect (h : Gathers c d) (file : FileId) : Gathers c (d.step (.inspect file)) := by
  have hrev := h.revision_inspect file
  have hpassive := h.passive.of_react (d.session.react_inspectFile d.program file)
  refine ⟨h.serves.inspectFile file, hpassive, .inl (Nat.le_of_eq hrev), ?_⟩
  have hsynced := h.passive.of_react (Registry.react_sync d.session.registry d.program.revision)
  have hadded : (d.step (.inspect file)).session.registry = _ :=
    h.serves.registry_inspectFile h.passive file
  have htold : (d.step (.inspect file)).stretch.told c = _ :=
    Stretch.told_concat c d.program d.seen file
  rw [Registry.sync_of_eq hrev, hadded, hsynced.texts_addAll, h.texts_sync, htold, List.map_append]
  rfl

theorem Gathers.edit (h : Gathers c d) (e : Edit) : Gathers c (d.step (.edit e)) := by
  rcases d.program.edit_eq_or_revision_edit e with hsame | hnext
  · have hdesk : d.step (.edit e) = d := by simp [step, hsame]
    rwa [hdesk]
  · have hseen : (d.step (.edit e)).stretch.told c = [] := by simp [stretch, step, hnext]
    refine ⟨serves_step h.serves (.edit e), h.passive, ?_, ?_⟩
    · exact h.behind.imp (fun hle => Nat.le_trans hle (by simp [step, hnext])) id
    · rw [hseen]
      -- either the registry has texts of an older revision, which the next look drops, or it has
      -- none
      rcases h.behind with hle | hempty
      · refine Registry.texts_sync_of_ne (Nat.ne_of_lt ?_)
        have hlt : d.program.revision < (d.program.edit e).revision := by omega
        exact Nat.lt_of_le_of_lt hle hlt
      · exact Registry.texts_sync_of_empty hempty _

theorem Gathers.onRegistry (h : Gathers c d) {change : Registry → Registry}
    (hkeeps : KeepsTexts change) : Gathers c (d.onRegistry change) := by
  obtain ⟨htexts, hrevision, hreact⟩ := hkeeps d.session.registry
  refine ⟨h.serves.withRegistry _, h.passive.of_react hreact, ?_, ?_⟩
  · simpa only [Desk.onRegistry, htexts, hrevision] using h.behind
  · have hsync : ((change d.session.registry).sync d.program.revision).2.texts =
        (d.session.registry.sync d.program.revision).2.texts := by
      simp only [Registry.sync, hrevision]
      split
      · exact htexts
      · rfl
    exact hsync.trans h.texts_sync

theorem Gathers.run (h : Gathers c d) (jobs : List Job) : Gathers c (d.run jobs) :=
  run_keeps (fun _ file h => h.inspect file) (fun _ e h => h.edit e)
    (fun _ _ hkeeps h => h.onRegistry hkeeps) h jobs

/-! ## What a subscriber has been told -/

variable {number : Nat} {heard : List Owner}

/-- The subscriber has heard what was told in the present stretch, after something else. -/
def Informed (c : Config) (d : Desk) (number : Nat) (heard : List Owner) : Prop :=
  d.session.registry.Hears number (heard ++ (d.stretch.told c).map (·.2))

theorem Informed.inspect (hd : Gathers c d) (h : d.Informed c number heard) (file : FileId) :
    (d.step (.inspect file)).Informed c number heard := by
  have hadded : (d.step (.inspect file)).session.registry = _ :=
    hd.serves.registry_inspectFile hd.passive file
  have htold : (d.step (.inspect file)).stretch.told c = _ :=
    Stretch.told_concat c d.program d.seen file
  have hsynced := hd.passive.of_react (Registry.react_sync d.session.registry d.program.revision)
  have hears := (h.sync d.program.revision).addAll hsynced (Session.flaggedEntries c d.program file)
  rw [Informed, hadded, htold, List.map_append, ← List.append_assoc]
  rwa [hd.texts_sync] at hears

theorem Informed.step_of_same (hd : Gathers c d) (h : d.Informed c number heard) {job : Job}
    (hjob : job ≠ .unsubscribe number)
    (hrev : (job.edited d.program).revision = d.program.revision) :
    (d.step job).Informed c number heard := by
  have hfiles : ∀ files, (d.inspectFiles files).Informed c number heard := by
    intro files
    have hboth := inspectFiles_keeps (P := fun d => Gathers c d ∧ d.Informed c number heard)
      (fun d file hd => ⟨hd.1.inspect file, hd.2.inspect hd.1 file⟩) ⟨hd, h⟩ files
    exact hboth.2
  cases job with
  | inspect file => exact hfiles [file]
  | inspectAll => exact hfiles (d.program.projectFiles.map (·.id))
  | listTasks file => exact hfiles [file]
  | subscribe => exact Registry.Hears.subscribe h
  | unsubscribe other => exact Registry.Hears.unsubscribe h fun heq => hjob (heq ▸ rfl)
  | edit e =>
    rcases d.program.edit_eq_or_revision_edit e with hsame | hnext
    · have hdesk : d.step (.edit e) = d := by simp [step, hsame]
      rwa [hdesk]
    · simp [Job.edited, hnext] at hrev

theorem Informed.step_of_next (h : d.Informed c number heard) {job : Job}
    (hrev : (job.edited d.program).revision ≠ d.program.revision) :
    (d.step job).Informed c number (heard ++ (d.stretch.told c).map (·.2)) := by
  have htold : (d.step job).stretch.told c = [] := by
    rw [stretch_step, if_neg hrev, Stretch.told_nil]
  rw [Informed, htold, List.map_nil, List.append_nil]
  cases job with
  | edit e => exact h
  | _ => exact absurd rfl hrev

/-- **A subscriber hears what is told in each stretch**, over whole runs. -/
theorem Informed.run (hd : Gathers c d) (h : d.Informed c number heard) {jobs : List Job}
    (hstays : .unsubscribe number ∉ jobs) : (d.run jobs).session.registry.Hears number
      (heard ++ (stretches d.program d.seen jobs).flatMap fun t => (t.told c).map (·.2)) := by
  -- what was told in the stretches that are over goes into `heard`
  induction jobs generalizing d heard with
  | nil => simpa [stretches, Informed, stretch, Desk.run] using h
  | cons job rest ih =>
    rw [List.mem_cons, not_or] at hstays
    have hjob : job ≠ .unsubscribe number := fun heq => hstays.1 heq.symm
    have hd' : Gathers c (d.step job) := hd.run [job]
    have hstretch := d.stretch_step job
    by_cases hrev : (job.edited d.program).revision = d.program.revision
    · have hrest := ih hd' (h.step_of_same hd hjob hrev) hstays.2
      rw [if_pos hrev] at hstretch
      obtain ⟨hprogram, hseen⟩ := Stretch.mk.inj hstretch
      rw [hprogram, hseen] at hrest
      rwa [stretches, if_pos hrev]
    · have hrest := ih hd' (h.step_of_next hrev) hstays.2
      rw [if_neg hrev] at hstretch
      obtain ⟨hprogram, hseen⟩ := Stretch.mk.inj hstretch
      rw [hprogram, hseen, List.append_assoc] at hrest
      rwa [stretches, if_neg hrev, List.flatMap_cons]

/-! ## Right after an inspection -/

theorem step_eq_inspectFiles (d : Desk) {job : Job} (h : job.files d.program ≠ []) :
    d.step job = d.inspectFiles (job.files d.program) := by
  refine d.step_inspection ?_
  cases job with
  | inspect file => rfl
  | inspectAll => rfl
  | listTasks file => rfl
  | edit e => exact absurd rfl h
  | subscribe => exact absurd rfl h
  | unsubscribe number => exact absurd rfl h

theorem Gathers.texts_inspectFiles (h : Gathers c d) (files : List FileId) (file : FileId) :
    let d' := d.inspectFiles (files ++ [file])
    d'.session.registry.revision = d.program.revision ∧
      d'.session.registry.texts =
        (Stretch.told c ⟨d.program, d.seen ++ (files ++ [file])⟩).map (·.1) := by
  intro d'
  have hlast : d' = (d.inspectFiles files).step (.inspect file) := by
    rw [← inspectFiles_nil ((d.inspectFiles files).step _), ← inspectFiles_cons,
      inspectFiles_inspectFiles]
  have hrev : d'.session.registry.revision = d'.program.revision := by
    rw [hlast]
    have hbefore : Gathers c (d.inspectFiles files) :=
      inspectFiles_keeps (fun _ file h => h.inspect file) h files
    exact hbefore.revision_inspect file
  have hgathers : Gathers c d' := inspectFiles_keeps (fun _ file h => h.inspect file) h _
  have htexts := hgathers.texts_sync
  rw [Registry.sync_of_eq hrev] at htexts
  exact ⟨hrev, htexts⟩

end Desk

/-- **The registry and the subscribers over a run.** Let a session that serves a program start with
an empty registry and go through any edits, inspections and subscriptions, and nothing else: no
subscriber calls back. Right after each inspection of a file, be it the last one of its job or not,
the registry is at the revision of the program and holds exactly the texts of those kernels, listed
for the files inspected since the program last changed, about which a rule other than the two that
do not flag has found something. Who was subscribed at the start and stayed so has been told once
for each text that entered the registry in a stretch, with the owner of the first of its files in
which the text is flagged, and of nothing else. -/
theorem flagged_and_told_over_runs (c : Config) (p : Program) (s : Session) (hserves : s.Serves c p)
    (hpassive : s.registry.Passive) (hempty : s.registry.texts = []) (jobs : List Job) :
    let d := Desk.run { program := p, session := s } jobs
    (∀ (job : Job) (before : List FileId) (file : FileId) (after : List FileId),
      job.files d.program = before ++ file :: after →
      let d' := d.inspectFiles (before ++ [file])
      d.step job = d'.inspectFiles after ∧
      d'.session.registry.revision = d.program.revision ∧
      d'.session.registry.texts =
        (Stretch.told c ⟨d.program, d.seen ++ (before ++ [file])⟩).map (·.1) ∧
      ∀ text, text ∈ d'.session.registry.texts ↔
        ∃ seen ∈ d.seen ++ (before ++ [file]), ∃ k ∈ Catalog.listed c d.program seen,
          (∃ f ∈ Session.findings c.enabledRules (.ofKernel c d.program k),
            f.rule ≠ .nonVoidReturn ∧ f.rule ≠ .unresolvableHelper) ∧ text = k.text) ∧
    (∀ (number : Nat) (received : List Owner),
      s.registry.mailboxes[number]? = some ⟨true, received⟩ →
      .unsubscribe number ∉ jobs →
      d.session.registry.mailboxes[number]? = some ⟨true,
        received ++ (stretches p [] jobs).flatMap fun t => (t.told c).map (·.2)⟩) ∧
    ∀ t : Stretch, ((t.told c).map (·.1)).Nodup ∧ ∀ text owner, (text, owner) ∈ t.told c ↔
      (t.files.find? (text ∈ Session.flaggedTexts c t.program ·)).map (Session.ownerOf t.program) =
        some owner := by
  intro d
  have hstart : Desk.Gathers c { program := p, session := s } :=
    Desk.gathers_of_empty hserves hpassive hempty
  have hd : Desk.Gathers c d := hstart.run jobs
  refine ⟨fun job before file after hfiles => ?_, fun number received hactive hstays => ?_,
    fun t => ⟨t.nodup_told c, fun text owner => Stretch.mem_told⟩⟩
  · intro d'
    obtain ⟨hrev, htexts⟩ := hd.texts_inspectFiles before file
    have hjob : d.step job = d'.inspectFiles after := by
      rw [d.step_eq_inspectFiles (by simp [hfiles]), Desk.inspectFiles_inspectFiles, hfiles,
        List.append_assoc]
      rfl
    refine ⟨hjob, hrev, htexts, fun text => ?_⟩
    rw [htexts, Stretch.mem_texts_told]
    simp only [Session.mem_flaggedTexts, Session.flagged_iff]
  · have hinformed : Desk.Informed c { program := p, session := s } number received := by
      have htold : (Desk.stretch { program := p, session := s }).told c = [] := rfl
      rw [Desk.Informed, htold, List.map_nil, List.append_nil]
      exact hactive
    exact hinformed.run hstart hstays

/-- A text that is flagged in two files is announced for the one that is inspected first, and again,
for the other one, after an edit. -/
theorem told_again_after_edit :
    let s := Session.start default (Registry.subscribe {}).2
    let p := Program.ofFiles [[.kernelOf "f" ["other.Vec"]],
      [.kernelOf "f" ["other.Vec"], .kernelOf "g" ["other.Vec"]]]
    let d := Desk.run { program := p, session := s } [.inspect ⟨1⟩, .inspectAll, .edit .touch,
      .inspect ⟨0⟩]
    (d.session.registry.mailboxes[0]?.map (·.received.map (·.file))) = some [⟨1⟩, ⟨1⟩, ⟨0⟩] ∧
      (d.step (.listTasks ⟨1⟩)).session.registry.texts = ["f", "g"] := by
  intro s p d
  have hserves : s.Serves default p := Session.serves_start default _ p
  obtain ⟨hregistry, htold, -⟩ := flagged_and_told_over_runs default p s hserves
    (fun _ _ _ => rfl) rfl
    [.inspect ⟨1⟩, .inspectAll, .edit .touch, .inspect ⟨0⟩]
  obtain ⟨hjob, -, htexts, -⟩ := hregistry (.listTasks ⟨1⟩) [] ⟨1⟩ [] rfl
  refine ⟨?_, ?_⟩
  · rw [htold 0 [] rfl (by simp)]
    decide +kernel
  · rw [hjob, Desk.inspectFiles_nil]
    refine htexts.trans ?_
    decide +kernel

end KernelLint
