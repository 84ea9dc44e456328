import SecretFill.Program
import SecretFill.Proofs.Cache

namespace SecretFill

/-!
# Jobs on a machine

A job is run step by step.  Most jobs of the program do nothing to a machine but tell it something;
filling a document also runs programs, as a walk over the store of a command does.

* `Job.run_bind`, `Job.run_ask` — how a job is run.
* `Job.environment_run` — a job that looks some variables up.
* `Machine.hear` — a machine that is told something.
* `Job.Tells` — jobs that have one result and tell the same, whatever the machine is.
* `Job.run_told` — no job reads what was told; `Job.SameButTold` — jobs that differ in nothing else.
* `Walk.perform_run` — a walk that is performed leaves what it leaves when it is run over the store
  of its command, and its notices are told.
-/

variable {α β : Type}

/-! ### Running a job -/

namespace Job

@[simp] theorem run_pure (a : α) (m : Machine) : (pure a : Job α).run m = (a, m) := rfl

theorem run_bind' (job : Job α) (f : α → Job β) (m : Machine) :
    (job.bind f).run m = (f (job.run m).1).run (job.run m).2 := by
  induction job generalizing m with
  | done a => rfl
  | act request resume ih => exact ih _ _

/-- **A job that goes on** is run on the machine that the first one leaves. -/
@[simp] theorem run_bind (job : Job α) (f : α → Job β) (m : Machine) :
    (job >>= f).run m = (f (job.run m).1).run (job.run m).2 := run_bind' job f m

/-- A request gets the answer of the machine. -/
@[simp] theorem run_ask (request : Request) (m : Machine) :
    (ask request).run m = m.answer request := rfl

end Job

/-! ### The environment -/

namespace Environment

variable {e : Environment} {name other : String}

theorem get?_set (value : String) :
    (e.set name value).get? other = if other = name then some value else e.get? other := by
  show List.lookup other ((name, value) :: (e.entries.filter fun entry => entry.1 ≠ name)) = _
  rw [List.lookup_cons]
  by_cases hname : other = name
  · rw [if_pos hname, hname, beq_self_eq_true]
  · rw [if_neg hname, beq_false_of_ne hname]
    exact lookup_filter_of_ne hname e.entries

end Environment

/-- The variables with some names are looked up, and no other ones. -/
theorem Job.environment_run (names : List String) (m : Machine) :
    ∃ e : Environment, (Job.environment names).run m = (e, m) ∧
      ∀ name, e.get? name = if name ∈ names then m.environment.get? name else none := by
  induction names with
  | nil => exact ⟨.empty, rfl, fun _ => rfl⟩
  | cons first names ih =>
    obtain ⟨e, hrun, hget⟩ := ih
    have hlook : (Job.ask (.lookUp first)).run m = (m.environment.get? first, m) := rfl
    cases hfirst : m.environment.get? first with
    | some value =>
      refine ⟨e.set first value, ?_, fun name => ?_⟩
      · rw [Job.environment, Job.run_bind, hlook, hfirst, Job.run_bind, hrun]
        rfl
      · rw [Environment.get?_set, hget]
        by_cases hname : name = first
        · simp [hname, hfirst]
        · simp [hname]
    | none =>
      refine ⟨e, ?_, fun name => ?_⟩
      · rw [Job.environment, Job.run_bind, hlook, hfirst, Job.run_bind, hrun]
        rfl
      · rw [hget]
        by_cases hname : name = first
        · simp [hname, hfirst]
        · simp [hname]

/-! ### Telling -/

/-- A machine that is told some texts. -/
def Machine.hear (m : Machine) (texts : List String) : Machine :=
  { m with told := m.told ++ texts }

@[simp] theorem Machine.hear_nil (m : Machine) : m.hear [] = m := by
  simp [hear]

@[simp] theorem Machine.hear_hear (m : Machine) (texts texts' : List String) :
    (m.hear texts).hear texts' = m.hear (texts ++ texts') := by
  simp [hear]

/-- A job has a result and tells some texts, whatever the machine is. -/
def Job.Tells (job : Job α) (a : α) (texts : List String) : Prop :=
  ∀ m : Machine, job.run m = (a, m.hear texts)

namespace Job.Tells

variable {job : Job α} {a : α} {b : β} {texts texts' : List String}

theorem done (a : α) : Tells (pure a) a [] := fun m => by
  rw [run_pure, m.hear_nil]

theorem tell (text : String) : Tells (ask (.tell text)) () [text] := fun _ => rfl

/-- What is told first comes first. -/
theorem bind {f : α → Job β} (h : Tells job a texts) (h' : Tells (f a) b texts') :
    Tells (job >>= f) b (texts ++ texts') := fun m => by
  rw [run_bind, h m, h', m.hear_hear]

/-- A row of things is told one by one. -/
theorem forM {γ : Type} {tell : γ → Job Unit} {texts : γ → List String}
    (h : ∀ c, Tells (tell c) () (texts c)) (row : List γ) :
    Tells (row.forM tell) () (row.flatMap texts) := by
  induction row with
  | nil => exact done ()
  | cons c row ih => exact (h c).bind ih

end Job.Tells

namespace Program.Voice

variable (v : Voice)

/-- What is told of a notice. -/
def texts : Log.Notice → List String
  | .record r => if v.filter.allows r then [r.line] else []
  | .printed text => [text]

/-- A line with a title. -/
def titledText (colour title text : String) : String := s!"{v.paint colour title}: {text}\n"

/-- What is told of a diagnosis. -/
def diagnosisTexts (d : Diagnosis) : List String :=
  v.titledText "1;31" "error" d.failure.message
    :: ((d.details.map (v.titledText "33" "details")).toList
      ++ (d.suggestion.map (v.titledText "32" "suggestion")).toList)

/-- What is told of a placeholder that has no value. -/
def unresolvedText (failure : String × Failure) : String :=
  v.titledText "1;33" "unresolved" s!"(({failure.1})): {failure.2.message}"

theorem note_tells (notice : Log.Notice) : (v.note notice).Tells () (v.texts notice) := by
  cases notice with
  | record r =>
    simp only [note, texts]
    split
    · exact .tell r.line
    · exact .done ()
  | printed text => exact .tell text

theorem titled_tells (colour title text : String) :
    (v.titled colour title text).Tells () [v.titledText colour title text] := by
  let line := s!"{v.paint colour title}: {text}"
  have hline : s!"{line}\n" = v.titledText colour title text := by
    apply String.ext
    simp [line, titledText, toString]
  rw [← hline]
  exact .tell _

theorem titled?_tells (colour title : String) (text? : Option String) :
    (v.titled? colour title text?).Tells () (text?.map (v.titledText colour title)).toList := by
  cases text? with
  | none => exact .done ()
  | some text => exact v.titled_tells colour title text

/-- **A diagnosis is told** in up to three lines. -/
theorem diagnosis_tells (d : Diagnosis) : (v.diagnosis d).Tells () (v.diagnosisTexts d) :=
  (v.titled_tells _ _ _).bind ((v.titled?_tells _ _ _).bind (v.titled?_tells _ _ _))

theorem unresolved_tells (failure : String × Failure) :
    (v.unresolved failure).Tells () [v.unresolvedText failure] := v.titled_tells _ _ _

end Program.Voice

/-! ### What a machine finds -/

namespace Machine

variable {m m' : Machine}

theorem search_cons (m : Machine) (name : String) (fault : SystemFault) (folder : String)
    (folders : List String) :
    m.search name fault (folder :: folders) =
      match m.programAt (Path.join folder name) with
      | .ok tool => .ok tool
      | .error e => m.search name (if e = .notAllowed then e else fault) folders := by
  rfl

/-- Where the programs of two machines correspond, so do those that a search finds, -/
theorem search_map {g : Tool → Tool}
    (h : ∀ path, m'.programAt path = (m.programAt path).map g) (name : String)
    (fault : SystemFault) (folders : List String) :
    m'.search name fault folders = (m.search name fault folders).map g := by
  induction folders generalizing fault with
  | nil => rfl
  | cons folder folders ih =>
    rw [search_cons, search_cons, h]
    cases m.programAt (Path.join folder name) with
    | ok tool => rfl
    | error e => exact ih _

/-- and those that a name stands for. -/
theorem executable_map {g : Tool → Tool}
    (h : ∀ path, m'.programAt path = (m.programAt path).map g)
    (henvironment : m'.environment = m.environment) (name : String) :
    m'.executable name = (m.executable name).map g := by
  have hpath : m'.searchPath = m.searchPath := by
    unfold searchPath
    rw [henvironment]
  unfold executable
  rw [hpath]
  split
  · rfl
  · split
    · exact h name
    · exact search_map h name _ _

/-- Where they are the same, a name stands for the same program. -/
theorem executable_congr (h : ∀ path, m'.programAt path = m.programAt path)
    (henvironment : m'.environment = m.environment) (name : String) :
    m'.executable name = m.executable name := by
  have hid : ∀ x : Except SystemFault Tool, x.map id = x := by
    intro x
    cases x <;> rfl
  have hmap := executable_map (g := id) (fun path => (h path).trans (hid _).symm) henvironment name
  rwa [hid] at hmap

theorem executable_told (m : Machine) (told : List String) (name : String) :
    ({ m with told } : Machine).executable name = m.executable name := by
  have hprogram : ∀ path, ({ m with told } : Machine).programAt path = m.programAt path :=
    fun _ => rfl
  exact executable_congr hprogram rfl name

theorem launch_hear (m : Machine) (texts : List String) (name : String)
    (arguments : List String) : (m.hear texts).launch name arguments
      = ((m.launch name arguments).1, (m.launch name arguments).2.hear texts) := by
  have hexecutable : (m.hear texts).executable name = m.executable name :=
    m.executable_told _ name
  unfold launch
  rw [hexecutable]
  split
  · rfl
  · cases m.executable name <;> rfl

end Machine

/-! ### What was told -/

/-- No answer depends on what was told before. -/
theorem Machine.answer_told (m : Machine) (told : List String) (request : Request) :
    ∃ told', ({ m with told } : Machine).answer request
      = ((m.answer request).1, { (m.answer request).2 with told := told' }) := by
  cases request with
  | lookUp | isThere | read | input | print | isTerminal | locate => exact ⟨told, rfl⟩
  | tell text => exact ⟨told ++ [text], rfl⟩
  | write path content =>
    refine ⟨told, ?_⟩
    have hdestination : ({ m with told } : Machine).destination path = m.destination path := rfl
    simp only [answer, write, hdestination]
    cases m.destination path <;> rfl
  | launch program arguments =>
    refine ⟨told, ?_⟩
    simp only [answer, launch, executable_told]
    split
    · rfl
    · cases m.executable program <;> rfl

/-- **No job reads what was told.** -/
theorem Job.run_told (job : Job α) (m : Machine) (told : List String) :
    ∃ told', job.run { m with told } = ((job.run m).1, { (job.run m).2 with told := told' }) := by
  induction job generalizing m told with
  | done a => exact ⟨told, rfl⟩
  | act request resume ih =>
    obtain ⟨told', hanswer⟩ := m.answer_told told request
    simp only [run, hanswer]
    exact ih _ _ _

/-- Two jobs differ at most in what they tell: they have the same result, and leave the same of
    machines that were told different things. -/
def Job.SameButTold (job job' : Job α) : Prop :=
  ∀ (m : Machine) (told : List String), ∃ told',
    job'.run { m with told } = ((job.run m).1, { (job.run m).2 with told := told' })

namespace Job.SameButTold

theorem refl (job : Job α) : SameButTold job job := job.run_told

theorem of_tells {job job' : Job α} {a : α} {texts texts' : List String} (h : Tells job a texts)
    (h' : Tells job' a texts') : SameButTold job job' := fun m told => by
  refine ⟨told ++ texts', ?_⟩
  rw [h m, h']
  rfl

theorem bind {job job' : Job α} {f f' : α → Job β} (h : SameButTold job job')
    (hnext : ∀ a, SameButTold (f a) (f' a)) : SameButTold (job >>= f) (job' >>= f') := by
  intro m told
  obtain ⟨told', hrun⟩ := h m told
  simp only [run_bind, hrun]
  exact hnext _ _ _

end Job.SameButTold

/-! ### Walks over a store command -/

open Lpass (StoreCommand)

namespace Lpass.StoreCommand

/-- Being told something is of no concern to a store. -/
theorem store_hear (c : StoreCommand) (key : Key) (m : Machine) (texts : List String) :
    c.store key (m.hear texts) = ((c.store key m).1, (c.store key m).2.hear texts) := by
  simp only [store, Machine.launch_hear]

/-- A fetch gets the outcome of the store, and its notices are told. -/
theorem fetch_run (c : StoreCommand) (v : Program.Voice) (key : Key) (m : Machine) :
    (c.fetch v.note key).run m = ((c.store key m).1.outcome,
      (c.store key m).2.hear ((c.store key m).1.notices.flatMap v.texts)) := by
  have htells := Job.Tells.forM v.note_tells (c.store key m).1.notices
  show Job.run (_ >>= fun _ => _) m = _
  rw [Job.run_bind, Job.run_ask, Job.run_bind]
  exact congrArg (fun x : Unit × Machine => ((c.store key m).1.outcome, x.2)) (htells _)

end Lpass.StoreCommand

namespace Walk

/-- A walk over a store command does not see what the machine was told. -/
theorem run_hear (c : StoreCommand) (w : Walk α) (cache : Cache) (m : Machine)
    (texts : List String) :
    let o := w.run c.store ⟨cache, m⟩
    w.run c.store ⟨cache, m.hear texts⟩
      = ⟨o.result, ⟨o.session.cache, o.session.store.hear texts⟩, o.notices⟩ := by
  induction w generalizing cache m with
  | done result => rfl
  | note notice next ih => simp only [run, ih]
  | ask key resume ih =>
    cases hu : cache.usable? key with
    | some secret => simp only [run, hu, ih]
    | none => simp only [run, hu, c.store_hear, ih]

/-- **A walk that is performed** has the result and leaves the cache of its run over the store of
    its command.  The machine is what that run leaves of it, and its notices are told. -/
theorem perform_run (c : StoreCommand) (v : Program.Voice) (w : Walk α) (cache : Cache)
    (m : Machine) :
    let o := w.run c.store ⟨cache, m⟩
    (w.perform (c.fetch v.note) v.note cache).run m
      = ((o.result, o.session.cache), o.session.store.hear (o.notices.flatMap v.texts)) := by
  induction w generalizing cache m with
  | done result => simp [perform, Job.run, run]
  | note notice next ih =>
    simp only [perform, Job.run_bind', v.note_tells notice m, ih, run_hear, run, Machine.hear_hear,
      List.flatMap_cons]
  | ask key resume ih =>
    cases hu : cache.usable? key with
    | some secret =>
      simp only [perform, hu, Job.run_bind', v.note_tells (hitNotice key) m, ih, run_hear, run,
        Machine.hear_hear, List.flatMap_cons]
    | none =>
      simp only [perform, hu, Job.run_bind', v.note_tells (missNotice key) m, c.fetch_run,
        c.store_hear, ih, run_hear, run, Machine.hear_hear, List.flatMap_cons, List.flatMap_append,
        List.append_assoc]

end Walk

end SecretFill
