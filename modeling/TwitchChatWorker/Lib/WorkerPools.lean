import Mathlib.Algebra.BigOperators.Group.List.Basic
import Mathlib.Algebra.GroupWithZero.Nat
import Mathlib.Algebra.Order.BigOperators.Group.List
import TwitchChatWorker.Lib.Batching
import TwitchChatWorker.Lib.Runs

/-!
Tasks that wait in a queue for a number of workers.  A worker takes the oldest
task, makes a job of it and stays with the job until it is over.  A pool that is
stopped takes no task any more; the jobs that have begun go on.
-/

namespace TwitchChatWorker.Lib.WorkerPools

open TwitchChatWorker.Lib.Batching
open TwitchChatWorker.Lib.Runs

/-- `ended` keeps the jobs that are over. -/
structure Pool (α J : Type*) where
  tasks : List α := []
  running : List J := []
  ended : List J := []
  stopped : Bool := false

/-- What the workers do: a task is begun, and a job goes one step on, with
something that the surroundings answer. -/
structure Setting (α J ι : Type*) where
  workers : Nat
  begin : α → ι → J
  advance : J → ι → J
  done : J → Bool

inductive Event (α ι : Type*) where
  | post (a : α)
  | take (answer : ι)
  | advance (worker : Nat) (answer : ι)
  | stop

variable {α J ι : Type*}

/-- A worker goes on with its job, unless the job is over. -/
def Pool.settle (setting : Setting α J ι) (x : Pool α J) (running : List J) (job : J) :
    Pool α J :=
  if setting.done job then { x with running := running, ended := x.ended ++ [job] }
  else { x with running := running ++ [job] }

def step (setting : Setting α J ι) (x : Pool α J) : Event α ι → Option (Pool α J)
  | .post a => some { x with tasks := x.tasks ++ [a] }
  | .take answer =>
      match x.tasks with
      | [] => none
      | a :: tasks =>
          if x.stopped = false ∧ x.running.length < setting.workers then
            some ({ x with tasks := tasks }.settle setting x.running (setting.begin a answer))
          else none
  | .advance worker answer =>
      match x.running[worker]? with
      | none => none
      | some job =>
          some (x.settle setting (x.running.eraseIdx worker) (setting.advance job answer))
  | .stop => some { x with stopped := true }

/-- The jobs that have been started. -/
def Pool.jobs (x : Pool α J) : List J := x.running ++ x.ended

/-- The tasks of an event, and the task that is taken in it. -/
def Event.posted : Event α ι → List α
  | .post a => [a]
  | _ => []

def taken (x : Pool α J) : Event α ι → List α
  | .take _ => x.tasks.head?.toList
  | _ => []

section Steps

variable {setting : Setting α J ι} {x x' : Pool α J}

theorem take_cases {answer : ι} (h : step setting x (.take answer) = some x') :
    ∃ a tasks, x.tasks = a :: tasks ∧ x.stopped = false ∧ x.running.length < setting.workers ∧
      x' = { x with tasks := tasks }.settle setting x.running (setting.begin a answer) := by
  simp only [step] at h
  split at h
  · cases h
  next a tasks htasks =>
    split_ifs at h with hfree
    exact ⟨a, tasks, htasks, hfree.1, hfree.2, (Option.some.inj h).symm⟩

theorem advance_cases {worker : Nat} {answer : ι}
    (h : step setting x (.advance worker answer) = some x') :
    ∃ job, x.running[worker]? = some job ∧
      x' = x.settle setting (x.running.eraseIdx worker) (setting.advance job answer) := by
  simp only [step] at h
  split at h
  · cases h
  next job hjob => exact ⟨job, hjob, (Option.some.inj h).symm⟩

@[simp] theorem tasks_settle (x : Pool α J) (running : List J) (job : J) :
    (x.settle setting running job).tasks = x.tasks := by
  unfold Pool.settle
  split <;> rfl

@[simp] theorem stopped_settle (x : Pool α J) (running : List J) (job : J) :
    (x.settle setting running job).stopped = x.stopped := by
  unfold Pool.settle
  split <;> rfl

theorem jobs_settle (setting : Setting α J ι) (x : Pool α J) (running : List J) (job : J) :
    (x.settle setting running job).jobs.Perm (job :: (running ++ x.ended)) := by
  unfold Pool.settle
  split
  · rw [Pool.jobs, ← List.append_assoc]
    exact List.perm_append_singleton job _
  · rw [Pool.jobs, List.append_assoc]
    exact List.perm_middle

theorem length_running_settle (x : Pool α J) (running : List J) (job : J) :
    (x.settle setting running job).running.length ≤ running.length + 1 := by
  unfold Pool.settle
  split
  · exact Nat.le_succ _
  · rw [List.length_append, List.length_singleton]

/-- The tasks are taken in the order in which they were posted. -/
theorem tasks_step {e : Event α ι} (hstep : step setting x e = some x') :
    x.tasks ++ e.posted = taken x e ++ x'.tasks := by
  cases e with
  | post a => exact Option.some.inj hstep ▸ rfl
  | take answer =>
      obtain ⟨a, tasks, htasks, -, -, rfl⟩ := take_cases hstep
      rw [tasks_settle, taken, htasks]
      exact List.append_nil _
  | advance worker answer =>
      obtain ⟨job, -, rfl⟩ := advance_cases hstep
      rw [tasks_settle]
      exact List.append_nil _
  | stop =>
      obtain rfl := Option.some.inj hstep
      exact List.append_nil _

theorem jobs_step {source : J → α} (hbegin : ∀ a answer, source (setting.begin a answer) = a)
    (hadvance : ∀ job answer, source (setting.advance job answer) = source job)
    {e : Event α ι} (hstep : step setting x e = some x') :
    (x'.jobs.map source).Perm (x.jobs.map source ++ taken x e) := by
  cases e with
  | post a =>
      obtain rfl := Option.some.inj hstep
      simp only [taken, List.append_nil]
      exact List.Perm.refl _
  | take answer =>
      obtain ⟨a, tasks, htasks, -, -, rfl⟩ := take_cases hstep
      have hjobs := (jobs_settle setting { x with tasks := tasks } x.running
        (setting.begin a answer)).map source
      rw [List.map_cons, hbegin] at hjobs
      rw [taken, htasks]
      exact hjobs.trans (List.perm_append_singleton a _).symm
  | advance worker answer =>
      obtain ⟨job, hjob, rfl⟩ := advance_cases hstep
      have hjobs := (jobs_settle setting x (x.running.eraseIdx worker)
        (setting.advance job answer)).map source
      rw [List.map_cons, hadvance, ← List.map_cons, ← List.cons_append] at hjobs
      simp only [taken, List.append_nil]
      exact hjobs.trans (((perm_of_getElem? hjob).1.append_right _).map source).symm
  | stop =>
      obtain rfl := Option.some.inj hstep
      simp only [taken, List.append_nil]
      exact List.Perm.refl _

/-- No more jobs go on than there are workers, and a job that goes on is not over. -/
structure Busy (setting : Setting α J ι) (x : Pool α J) : Prop where
  workers : x.running.length ≤ setting.workers
  running : ∀ job ∈ x.running, setting.done job = false
  ended : ∀ job ∈ x.ended, setting.done job = true

theorem Busy.settle (h : Busy setting x) {running : List J} {job : J}
    (hlength : running.length < setting.workers) (hrunning : running ⊆ x.running) :
    Busy setting (x.settle setting running job) := by
  refine ⟨(length_running_settle x running job).trans hlength, ?_, ?_⟩ <;>
    unfold Pool.settle <;> split
  · exact fun other hother => h.running other (hrunning hother)
  next hgoing =>
    intro other hother
    rcases List.mem_append.mp hother with hother | hother
    · exact h.running other (hrunning hother)
    · rw [List.mem_singleton.mp hother]
      exact Bool.eq_false_iff.mpr hgoing
  next hover =>
    intro other hother
    rcases List.mem_append.mp hother with hother | hother
    · exact h.ended other hother
    · rw [List.mem_singleton.mp hother]
      exact hover
  · exact h.ended

theorem Busy.step (h : Busy setting x) {e : Event α ι}
    (hstep : WorkerPools.step setting x e = some x') : Busy setting x' := by
  cases e with
  | post a => exact Option.some.inj hstep ▸ ⟨h.workers, h.running, h.ended⟩
  | take answer =>
      obtain ⟨a, tasks, -, -, hfree, rfl⟩ := take_cases hstep
      have hbefore : Busy setting { x with tasks := tasks } := ⟨h.workers, h.running, h.ended⟩
      exact hbefore.settle hfree (List.Subset.refl _)
  | advance worker answer =>
      obtain ⟨job, hjob, rfl⟩ := advance_cases hstep
      have hlt : (x.running.eraseIdx worker).length < x.running.length := by
        have hworker := (List.getElem?_eq_some_iff.mp hjob).1
        rw [List.length_eraseIdx_of_lt hworker]
        omega
      exact h.settle (hlt.trans_le h.workers) (List.eraseIdx_sublist _ _).subset
  | stop => exact Option.some.inj hstep ▸ ⟨h.workers, h.running, h.ended⟩

/-- A single worker does one job after another. -/
theorem inOrder_step {source : J → α} (hbegin : ∀ a answer, source (setting.begin a answer) = a)
    (hadvance : ∀ job answer, source (setting.advance job answer) = source job)
    (hbusy : Busy setting x) (hsingle : setting.workers ≤ 1) {e : Event α ι}
    (hstep : WorkerPools.step setting x e = some x') :
    (x'.ended ++ x'.running).map source = (x.ended ++ x.running).map source ++ taken x e := by
  have hsettle (y : Pool α J) (job : J) :
      ((y.settle setting [] job).ended ++ (y.settle setting [] job).running).map source =
        y.ended.map source ++ [source job] := by
    unfold Pool.settle
    split <;> simp
  cases e with
  | post a =>
      obtain rfl := Option.some.inj hstep
      exact (List.append_nil _).symm
  | take answer =>
      obtain ⟨a, tasks, htasks, -, hfree, rfl⟩ := take_cases hstep
      have hidle : x.running = [] := List.eq_nil_of_length_eq_zero (by omega)
      rw [hidle, hsettle, hbegin, taken, htasks, List.append_nil]
      rfl
  | advance worker answer =>
      obtain ⟨job, hjob, rfl⟩ := advance_cases hstep
      have hlength := hbusy.workers.trans hsingle
      match hrunning : x.running, worker with
      | [], _ => simp [hrunning] at hjob
      | [other], 0 =>
          obtain rfl : other = job := by simpa [hrunning] using hjob
          have hnone : [other].eraseIdx 0 = [] := rfl
          rw [hnone, hsettle, hadvance, List.map_append]
          exact (List.append_nil _).symm
      | [_], _ + 1 => simp [hrunning] at hjob
      | _ :: _ :: _, _ => simp [hrunning] at hlength
  | stop =>
      obtain rfl := Option.some.inj hstep
      exact (List.append_nil _).symm

theorem forall_jobs_step {P : J → Prop} (hbegin : ∀ a answer, P (setting.begin a answer))
    (hadvance : ∀ job answer, P job → P (setting.advance job answer))
    (h : ∀ job ∈ x.jobs, P job) {e : Event α ι} (hstep : step setting x e = some x') :
    ∀ job ∈ x'.jobs, P job := by
  cases e with
  | post a => exact Option.some.inj hstep ▸ h
  | take answer =>
      obtain ⟨a, tasks, -, -, -, rfl⟩ := take_cases hstep
      intro job hjob
      rcases List.mem_cons.mp ((jobs_settle setting _ _ _).mem_iff.mp hjob) with rfl | hjob
      · exact hbegin a answer
      · exact h job hjob
  | advance worker answer =>
      obtain ⟨old, hold, rfl⟩ := advance_cases hstep
      intro job hjob
      rcases List.mem_cons.mp ((jobs_settle setting _ _ _).mem_iff.mp hjob) with rfl | hjob
      · exact hadvance old answer (h old (List.mem_append_left _ (List.mem_of_getElem? hold)))
      · have hsub := (List.eraseIdx_sublist x.running worker).append_right x.ended
        exact h job (hsub.subset hjob)
  | stop => exact Option.some.inj hstep ▸ h

end Steps

section Work

variable {setting : Setting α J ι} {x x' : Pool α J}

/-- What the workers do by themselves. -/
def Event.own : Event α ι → Prop
  | .take _ | .advance _ _ => True
  | .post _ | .stop => False

/-- Unless all tasks have been done, something can be done. -/
theorem exists_step (hworkers : 0 < setting.workers) (hstopped : x.stopped = false) (answer : ι)
    (h : x.tasks ≠ [] ∨ x.running ≠ []) :
    ∃ e : Event α ι, e.own ∧ (step setting x e).isSome := by
  match hrunning : x.running, htasks : x.tasks with
  | job :: running, _ => exact ⟨.advance 0 answer, trivial, by simp [step, hrunning]⟩
  | [], a :: tasks =>
      exact ⟨.take answer, trivial, by simp [step, hrunning, htasks, hstopped, hworkers]⟩
  | [], [] => simp [hrunning, htasks] at h

/-- The steps that are left to do, when a job that is begun has a rank of at most
`bound` and every step of a job that goes on brings its rank down. -/
def pending (rank : J → Nat) (bound : Nat) (x : Pool α J) : Nat :=
  x.tasks.length * (bound + 2) + (x.running.map fun job => rank job + 1).sum

theorem pending_lt {rank : J → Nat} {bound : Nat}
    (hbegin : ∀ a answer, rank (setting.begin a answer) ≤ bound)
    (hadvance : ∀ job answer, setting.done (setting.advance job answer) = false →
      rank (setting.advance job answer) < rank job)
    {e : Event α ι} (hown : e.own) (hstep : step setting x e = some x') :
    pending rank bound x' < pending rank bound x := by
  cases e with
  | post a => exact hown.elim
  | stop => exact hown.elim
  | take answer =>
      obtain ⟨a, tasks, htasks, -, -, rfl⟩ := take_cases hstep
      have hrank := hbegin a answer
      simp only [pending, tasks_settle, htasks, List.length_cons, Nat.succ_mul]
      unfold Pool.settle
      split
      · dsimp only
        omega
      · rw [List.map_append, List.sum_append, List.map_singleton, List.sum_singleton]
        omega
  | advance worker answer =>
      obtain ⟨job, hjob, rfl⟩ := advance_cases hstep
      have hperm := ((perm_of_getElem? hjob).1.map fun job => rank job + 1).sum_eq
      rw [List.map_cons, List.sum_cons] at hperm
      simp only [pending, tasks_settle]
      unfold Pool.settle
      split
      · dsimp only
        omega
      next hgoing =>
        have hrank := hadvance job answer (Bool.eq_false_iff.mpr hgoing)
        rw [List.map_append, List.sum_append, List.map_singleton, List.sum_singleton]
        omega

end Work

end TwitchChatWorker.Lib.WorkerPools
