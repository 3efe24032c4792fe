import KernelLint.Proofs.Session.Desk
import KernelLint.Resolve.Program

/-!
# Runnable tasks

Listing tasks inspects the file first, so every kernel that is listed was settled a moment ago: had
something been found that keeps it from being run, its text would be in the registry and it would
not be a task. This needs nothing of the state the session was in, but it needs the texts to stay: a
subscriber that takes them out of the registry again puts kernels back on the list. What does depend
on the past is the rest of the registry: the texts flagged in other files at the same revision. The
registry knows kernels by their texts alone, so a kernel is left out as well when a kernel of
another file with the same text was flagged, and this is the only trace that earlier inspections
leave.
-/

namespace KernelLint

namespace Session

variable {s : Session} {c : Config} {p : Program} {file : FileId}

@[simp] theorem config_inspectKernels (p : Program) (owner : Owner) (kernels : List Method)
    (s : Session) :
    (inspectKernels p owner kernels s).2.config = s.config := by
  induction kernels generalizing s with
  | nil => rfl
  | cons k rest ih => rw [session_inspectKernels_cons, ih, config_inspectKernel]

@[simp] theorem config_inspectFile (s : Session) (p : Program) (file : FileId) :
    (s.inspectFile p file).2.config = s.config := by
  rw [session_inspectFile_eq, config_inspectKernels]
  rfl

theorem session_runnableTasks (s : Session) (p : Program) (file : FileId) :
    (s.runnableTasks p file).2 = (s.inspectFile p file).2 :=
  rfl

theorem tasks_runnableTasks (s : Session) (p : Program) (file : FileId) :
    (s.runnableTasks p file).1 = ((Catalog.listed s.config p file).filter
      (Catalog.isRunnable (s.inspectFile p file).2.registry)).map (Catalog.task s.config p) := by
  have hconfig := s.config_inspectFile p file
  calc (s.runnableTasks p file).1
      = Catalog.tasks (s.inspectFile p file).2.config (s.inspectFile p file).2.registry p file :=
        rfl
    _ = _ := by rw [hconfig, Catalog.tasks_eq]

theorem clean_of_isRunnable (hkeeps : s.registry.Keeps) {k : Method}
    (hk : k ∈ Catalog.listed s.config p file)
    (hrun : Catalog.isRunnable (s.inspectFile p file).2.registry k = true) :
    Clean ((s.inspectFile p file).2.verdict p k) := by
  obtain ⟨-, -, hnew⟩ := Catalog.isRunnable_iff.mp hrun
  refine clean_of_not_flagged (Bool.eq_false_iff.mpr fun hflag => ?_)
  exact hnew ((settled_inspectFile hkeeps hk).registered hflag)

end Session

/-- **Runnable tasks are sound.** Whatever state the session is in, and whatever subscribers do as
long as none of them takes a text out of the registry, a task that is listed for a file is a live
method of the file that carries a mark, is well formed and returns nothing, and the session, asked
about it again, finds nothing that is an error or a call into a library. If the state was reached
from a new session by any run of edits, inspections, listings and subscriptions, a new session does
not find anything of the kind either. -/
theorem runnableTasks_sound (s : Session) (hkeeps : s.registry.Keeps) (p : Program) (file : FileId)
    (task : Task) (htask : task ∈ (s.runnableTasks p file).1) :
    ∃ k, p.method? task.method = some k ∧ k.file = file ∧ (s.config.marker? k).isSome ∧
      k.hasErrors = false ∧ k.returnsVoid = true ∧
      (∀ owner, Session.Clean ((s.runnableTasks p file).2.inspectKernel p owner k).1) ∧
      ∀ c registry p₀ jobs,
        s = ((Desk.start c registry p₀).run jobs).session →
        p = ((Desk.start c registry p₀).run jobs).program →
        ∀ owner, Session.Clean ((Session.start c).inspectKernel p owner k).1 := by
  rw [Session.tasks_runnableTasks] at htask
  obtain ⟨k, hmem, rfl⟩ := List.mem_map.mp htask
  obtain ⟨hk, hrun⟩ := List.mem_filter.mp hmem
  obtain ⟨hlive, hfile, hmark⟩ := Catalog.spec_of_mem_listed hk
  obtain ⟨herrors, hvoid, -⟩ := Catalog.isRunnable_iff.mp hrun
  have hclean := Session.clean_of_isRunnable hkeeps hk hrun
  refine ⟨k, hlive, hfile, hmark, herrors, hvoid, fun owner => ?_, ?_⟩
  · rw [Session.session_runnableTasks, Session.found_inspectKernel]
    exact hclean
  intro c registry p₀ jobs hs hp owner
  have hserves : s.Serves c p := by
    rw [hs, hp]
    exact Desk.serves_run (Session.serves_start c registry p₀) jobs
  have hverdict := (hserves.inspectFile file).verdict_eq hlive
  rw [(Session.serves_start c {} p).found_inspectKernel hlive owner, ← hverdict]
  exact hclean

/-- Two files with a kernel each, written with the same text. The second parameter is of a type of
the runtime in the second file and of a foreign type in the first. -/
def Program.twinKernels : Program :=
  let param (type : String) : Parameter :=
      { name := "", type := { (default : TypeUse) with type := ⟨type, 0⟩ } }
  let kernel (file : FileId) (type : String) : Method :=
    { name := "run", owner := none, file, text := "void run(KernelContext c, Vec v) {}"
      params := [param "uk.ac.manchester.tornado.api.KernelContext", param type]
      result := some { (default : TypeUse) with type := ⟨"void", 0⟩ }
      body := some (.block default []) }
  let p := (Program.empty.addFile ⟨"A.java"⟩ none [] .project).2
  let p := (p.addFile ⟨"B.java"⟩ none [] .project).2
  let p := (p.addMethod (kernel ⟨0⟩ "other.Vec")).2
  (p.addMethod (kernel ⟨1⟩ "uk.ac.manchester.tornado.api.Vec")).2

/-- The kernel of the second file is listed after an inspection of the first, once an edit let the
session forget what it flagged there. A subscriber has put another text into the registry by
then. -/
theorem runnableTasks_sound_after_edit :
    let busy : Registry :=
      { react := fun _ _ state => { state with texts := state.texts ++ ["void other() {}"] } }
    let d := (Desk.start default busy .twinKernels).run [.subscribe, .inspect ⟨0⟩, .edit .touch]
    ∃ task ∈ (d.session.runnableTasks d.program ⟨1⟩).1, ∃ k,
      d.program.method? task.method = some k ∧
      Session.Clean ((Session.start default).inspectKernel d.program default k).1 := by
  intro busy d
  have hbusy : busy.Keeps := fun _ _ _ => List.subset_append_left _ _
  have hkeeps : d.session.registry.Keeps := hbusy.of_react (Desk.react_run ..)
  have hlisted : (d.session.runnableTasks d.program ⟨1⟩).1 ≠ [] := by decide +kernel
  obtain ⟨task, htask⟩ := List.exists_mem_of_ne_nil _ hlisted
  obtain ⟨k, hlive, -, -, -, -, -, hfresh⟩ :=
    runnableTasks_sound d.session hkeeps d.program ⟨1⟩ task htask
  exact ⟨task, htask, k, hlive, hfresh _ _ _ _ rfl rfl default⟩

/-- A kernel that calls a method which throws, before anything is resolved. -/
def Program.unlinkedThrow : Program :=
  let context : Parameter :=
    { name := "c"
      type := { (default : TypeUse) with type :=
        ⟨"uk.ac.manchester.tornado.api.KernelContext", 0⟩ } }
  let p := (Program.empty.addFile ⟨"K.java"⟩ none [] .project).2
  let p := (p.addClass { name := "K", qualifiedName := "K", file := ⟨0⟩ }).2
  let p := (p.addMethod
    { name := "run", owner := some ⟨0⟩, file := ⟨0⟩, text := "void run(KernelContext c) { help(); }"
      params := [context]
      result := some { (default : TypeUse) with type := ⟨"void", 0⟩ }
      body := some (.eval default (.call default "help" none [] none)) }).2
  (p.addMethod
    { name := "help", owner := some ⟨0⟩, file := ⟨0⟩, text := "void help() { throw null; }"
      body := some (.raise default (.literal default .null)) }).2

/-- A subscriber that clears the registry when it is told puts a kernel on the list about which the
session finds an error. So does a resolution that is not noticed, of a program that was listed
before: the session goes on with the scope it remembers, and a new session finds an error. -/
theorem flagged_kernels_listed :
    (let clearing : Registry := { react := fun _ _ state => { state with texts := [] } }
      let d := (Desk.start default clearing .twinKernels).run [.subscribe]
      ∃ task ∈ (d.session.runnableTasks d.program ⟨0⟩).1, ∃ k,
        d.program.method? task.method = some k ∧
          ∃ f ∈ ((d.session.runnableTasks d.program ⟨0⟩).2.inspectKernel d.program default k).1,
            f.severity = .error) ∧
    (let p := Program.unlinkedThrow
      let s := ((Session.start default).runnableTasks p ⟨0⟩).2
      ∃ task ∈ (s.runnableTasks p.resolve ⟨0⟩).1, ∃ k, p.resolve.method? task.method = some k ∧
        ∃ f ∈ ((Session.start default).inspectKernel p.resolve default k).1,
          f.severity = .error) := by
  refine ⟨?_, ?_⟩
  · intro clearing d
    let task := ((d.session.runnableTasks d.program ⟨0⟩).1).headD default
    exact ⟨task, by decide +kernel, (d.program.method? task.method).get (by decide +kernel),
      (Option.some_get _).symm, by decide +kernel⟩
  · intro p s
    let task := ((s.runnableTasks p.resolve ⟨0⟩).1).headD default
    exact ⟨task, by decide +kernel, (p.resolve.method? task.method).get (by decide +kernel),
      (Option.some_get _).symm, by decide +kernel⟩

/-! ## What earlier inspections leave -/

namespace Desk

variable {c : Config} {d : Desk} {file : FileId}

/-- The tasks that the session lists for a file. -/
def tasks (d : Desk) (file : FileId) : List Task := (d.session.runnableTasks d.program file).1

/-- Is the text of the task also that of a kernel flagged in another file that was seen? -/
def clashes (c : Config) (d : Desk) (file : FileId) (task : Task) : Bool :=
  (d.program.method? task.method).any fun k =>
    d.seen.any fun other => other ≠ file && (Session.flaggedTexts c d.program other).contains k.text

theorem clashes_iff {task : Task} : d.clashes c file task = true ↔
    ∃ k, d.program.method? task.method = some k ∧
      ∃ other ∈ d.seen, other ≠ file ∧ k.text ∈ Session.flaggedTexts c d.program other := by
  simp only [clashes, Option.any_eq_true, List.any_eq_true, Bool.and_eq_true, decide_eq_true_eq,
    List.contains_iff_mem]

theorem clashes_congr {d' : Desk} (hprogram : d'.program = d.program)
    (hseen : ∀ other, other ≠ file → (other ∈ d'.seen ↔ other ∈ d.seen)) (task : Task) :
    d'.clashes c file task = d.clashes c file task := by
  rw [Bool.eq_iff_iff, clashes_iff, clashes_iff, hprogram]
  refine exists_congr fun k => and_congr_right fun _ => exists_congr fun other => ?_
  constructor
  · rintro ⟨hother, hne, hflag⟩
    exact ⟨(hseen other hne).mp hother, hne, hflag⟩
  · rintro ⟨hother, hne, hflag⟩
    exact ⟨(hseen other hne).mpr hother, hne, hflag⟩

theorem Tracks.isRunnable_inspectFile (h : Tracks c d) {k : Method} :
    Catalog.isRunnable (d.session.inspectFile d.program file).2.registry k = true ↔
      k.hasErrors = false ∧ k.returnsVoid = true ∧ k.text ∉ Session.flaggedTexts c d.program file ∧
        ∀ other ∈ d.seen, k.text ∉ Session.flaggedTexts c d.program other := by
  rw [Catalog.isRunnable_iff, h.serves.mem_texts_inspectFile h.passive, h.mem_texts_sync]
  simp only [not_or, not_exists, not_and, and_comm]

theorem Tracks.tasks_eq (h : Tracks c d) (file : FileId) :
    d.tasks file = ((Catalog.listed c d.program file).filter
      (Catalog.isRunnable (d.session.inspectFile d.program file).2.registry)).map
        (Catalog.task c d.program) := by
  rw [tasks, Session.tasks_runnableTasks, h.serves.config_eq]

/-- **The trace of the past**: of what a new session lists, only the clashing tasks are missing. -/
theorem Tracks.tasks_eq_filter (h : Tracks c d) (file : FileId) :
    d.tasks file = ((start c {} d.program).tasks file).filter fun task =>
      !d.clashes c file task := by
  have hfresh : Tracks c (start c {} d.program) :=
    tracks_start c d.program (fun _ _ _ => rfl) rfl (Nat.zero_le _)
  rw [h.tasks_eq, hfresh.tasks_eq, List.filter_map, List.filter_filter]
  refine congrArg _ (List.filter_congr fun k hk => ?_)
  have hlive := Catalog.live_of_mem_listed hk
  rw [Bool.eq_iff_iff, Bool.and_eq_true, Function.comp_apply, Bool.not_eq_true',
    Bool.eq_false_iff, Ne, clashes_iff, h.isRunnable_inspectFile, hfresh.isRunnable_inspectFile]
  constructor
  · rintro ⟨herrors, hvoid, hown, hseen⟩
    refine ⟨?_, herrors, hvoid, hown, fun other hother => absurd hother List.not_mem_nil⟩
    rintro ⟨m, hm, other, hother, -, hflag⟩
    obtain rfl : k = m := Option.some.inj (hlive.symm.trans hm)
    exact hseen other hother hflag
  · rintro ⟨hclash, herrors, hvoid, hown, -⟩
    refine ⟨herrors, hvoid, hown, fun other hother hflag => ?_⟩
    by_cases hfile : other = file
    · exact hown (hfile ▸ hflag)
    · exact hclash ⟨k, hlive, other, hother, hfile, hflag⟩

theorem seen_run_inspections (c : Config) (p : Program) {jobs : List Job}
    (h : ∀ job ∈ jobs, job.isInspection) :
    ((start c {} p).run jobs).program = p ∧
    ((start c {} p).run jobs).seen = jobs.flatMap (·.files p) := by
  rw [run_inspections _ h]
  exact ⟨rfl, List.nil_append _⟩

end Desk

/-- **Runnable tasks and the past.** After any run of edits, inspections, listings and
subscriptions, a session lists for a file the tasks that a new session lists, less those whose text
is also that of a kernel flagged in another file inspected since the program last changed. It lists
all of them when there is no such kernel, and two runs that inspected the same other files since
then lead to the same tasks. When a run only inspects, the program stays the same and the files
inspected are those of all its steps. -/
theorem tasks_after_any_run (c : Config) (p p' : Program) (jobs jobs' : List Job) (file : FileId) :
    let d := (Desk.start c {} p).run jobs
    let d' := (Desk.start c {} p').run jobs'
    let fresh := Desk.start c {} d.program
    d.tasks file = (fresh.tasks file).filter (fun task => !d.clashes c file task) ∧
    ((∀ task ∈ fresh.tasks file, d.clashes c file task = false) → d.tasks file = fresh.tasks file) ∧
    (d'.program = d.program → (∀ other, other ≠ file → (other ∈ d'.seen ↔ other ∈ d.seen)) →
      d'.tasks file = d.tasks file) ∧
    ((∀ job ∈ jobs, job.isInspection) → d.program = p ∧ d.seen = jobs.flatMap (·.files p)) := by
  intro d d' fresh
  have htracks : Desk.Tracks c d :=
    (Desk.tracks_start c p (fun _ _ _ => rfl) rfl (Nat.zero_le _)).run jobs
  have htracks' : Desk.Tracks c d' :=
    (Desk.tracks_start c p' (fun _ _ _ => rfl) rfl (Nat.zero_le _)).run jobs'
  have hfilter := htracks.tasks_eq_filter file
  refine ⟨hfilter, fun hnone => ?_, fun hprogram hseen => ?_, Desk.seen_run_inspections c p⟩
  · rw [hfilter, List.filter_eq_self]
    intro task htask
    rw [hnone task htask]
    rfl
  · rw [hfilter, htracks'.tasks_eq_filter, hprogram]
    simp only [Desk.clashes_congr hprogram hseen]

/-- When the device knows the vector type, neither kernel is flagged, and inspections of the first
file leave no trace in what is listed for the second. -/
theorem tasks_kept_beside_sound_twin :
    let c : Config := { (default : Config) with vectorTypes := ["Vec"] }
    let fresh := Desk.start c {} .twinKernels
    let d := fresh.run [.inspect ⟨0⟩]
    let d' := fresh.run [.inspectAll, .listTasks ⟨0⟩]
    d.seen = [⟨0⟩] ∧ fresh.tasks ⟨1⟩ ≠ [] ∧ d.tasks ⟨1⟩ = fresh.tasks ⟨1⟩ ∧
      d'.tasks ⟨1⟩ = d.tasks ⟨1⟩ := by
  intro c fresh d d'
  obtain ⟨-, hkept, hsame, -⟩ :=
    tasks_after_any_run c .twinKernels .twinKernels [.inspect ⟨0⟩] [.inspectAll, .listTasks ⟨0⟩] ⟨1⟩
  obtain ⟨hprogram, hseen⟩ := @Desk.seen_run_inspections c .twinKernels [.inspect ⟨0⟩] (by decide)
  obtain ⟨hprogram', hseen'⟩ :=
    @Desk.seen_run_inspections c .twinKernels [.inspectAll, .listTasks ⟨0⟩] (by decide)
  have hfiles : Program.twinKernels.projectFiles.map (·.id) = [⟨0⟩, ⟨1⟩] := by decide +kernel
  have hnone : ∀ task ∈ fresh.tasks ⟨1⟩, d.clashes c ⟨1⟩ task = false := by decide +kernel
  have hothers : ∀ other, other ≠ ⟨1⟩ → (other ∈ d'.seen ↔ other ∈ d.seen) := by
    intro other hother
    rw [hseen, hseen']
    simp [Job.files, hfiles, hother]
  rw [hprogram] at hkept
  exact ⟨hseen, by decide +kernel, hkept hnone, hsame (hprogram'.trans hprogram.symm) hothers⟩

/-- Otherwise the kernel of the first file is flagged, and an inspection of that file takes its twin
in the second file off the list. -/
theorem tasks_lost_to_flagged_twin :
    let fresh := Desk.start default {} .twinKernels
    let d := fresh.run [.inspect ⟨0⟩]
    d.program = fresh.program ∧ d.tasks ⟨1⟩ = [] ∧ fresh.tasks ⟨1⟩ ≠ [] := by
  intro fresh d
  exact ⟨rfl, by decide +kernel, by decide +kernel⟩

end KernelLint
