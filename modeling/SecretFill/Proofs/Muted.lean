import SecretFill.Proofs.Jobs

namespace SecretFill

/-!
# Machines whose programs print nothing

If what the programs of a machine print is dropped, a muted machine is left.  Two machines that are
equal when muted differ in nothing else, and a job that runs no programs cannot tell them apart.

* `Machine.muted` — a machine whose programs print nothing.
* `Node.find_muted`, `Node.read_muted`, `Node.put_muted` — nobody but who runs programs notices.
* `Machine.launch_muted` — who runs one gets the same run, but for what is printed.
* `Job.TellsAlike` — jobs that look and tell, and cannot tell such machines apart.
* `Program.readDocument_tellsAlike`, `settings_tellsAlike`, `ensureStore_tellsAlike` — so the
  program does until it fetches its first secret.
-/

/-- Two results that a map makes equal are the same failure, or successes that it makes equal. -/
theorem map_eq_cases {ε α β : Type} {f : α → β} {x y : Except ε α} (h : x.map f = y.map f) :
    (∃ e, x = .error e ∧ y = .error e) ∨ ∃ a b, x = .ok a ∧ y = .ok b ∧ f a = f b := by
  cases x with
  | error e =>
    cases y with
    | error e' => exact .inl ⟨e, rfl, congrArg Except.error (Except.error.inj h).symm⟩
    | ok b => cases h
  | ok a =>
    cases y with
    | error e' => cases h
    | ok b => exact .inr ⟨a, b, rfl, rfl, Except.ok.inj h⟩

/-! ### Muted folders -/

/-- What a program does, without what it prints. -/
def Run.muted (r : Run) : Run := { r with output := [] }

/-- A program that prints nothing. -/
def Tool.muted (t : Tool) : Tool where
  known := t.known.map fun entry => (entry.1, entry.2.muted)
  otherwise := t.otherwise.muted

/-- The values of names are changed one by one. -/
theorem lookup_map {κ α β : Type} [BEq κ] (f : α → β) (name : κ) (entries : List (κ × α)) :
    (entries.map fun entry => (entry.1, f entry.2)).lookup name
      = (entries.lookup name).map f := by
  induction entries with
  | nil => rfl
  | cons entry entries ih =>
    rw [List.map_cons, List.lookup_cons, List.lookup_cons, ih]
    cases name == entry.1 <;> rfl

/-- A muted program does the same, but prints nothing. -/
theorem Tool.run_muted (t : Tool) (arguments : List String) :
    t.muted.run arguments = (t.run arguments).muted := by
  unfold Tool.run Tool.muted
  rw [lookup_map]
  cases t.known.lookup arguments <;> rfl

namespace Node

mutual

/-- A file, a program or a folder in which no program prints anything. -/
def muted : Node → Node
  | file content => file content
  | program tool => program tool.muted
  | barred fault => barred fault
  | folder entries => folder (mutedEntries entries)

/-- What is in a folder, no program in it printing anything. -/
def mutedEntries : List (String × Node) → List (String × Node)
  | [] => []
  | (name, n) :: entries => (name, n.muted) :: mutedEntries entries

end

theorem mutedEntries_eq (entries : List (String × Node)) :
    mutedEntries entries = entries.map fun entry => (entry.1, entry.2.muted) := by
  induction entries with
  | nil => rfl
  | cons entry entries ih => rw [mutedEntries, ih, List.map_cons]

@[simp] theorem muted_file (content : List UInt8) : (file content).muted = file content := by
  rw [muted]

@[simp] theorem muted_folder (entries : List (String × Node)) :
    (folder entries).muted = folder (entries.map fun entry => (entry.1, entry.2.muted)) := by
  rw [muted, mutedEntries_eq]

@[simp] theorem isFolder_muted (n : Node) : n.muted.isFolder = n.isFolder := by
  cases n <;> simp [muted, isFolder]

theorem child?_muted (n : Node) (name : String) :
    n.muted.child? name = (n.child? name).map muted := by
  cases n with
  | file | program | barred => simp [muted, child?]
  | folder entries =>
    rw [muted_folder]
    exact lookup_map muted name entries

theorem at?_muted (n : Node) (names : List String) :
    n.muted.at? names = (n.at? names).map muted := by
  induction names generalizing n with
  | nil => rfl
  | cons name names ih =>
    simp only [at?, child?_muted]
    cases n.child? name with
    | none => rfl
    | some child => exact ih child

/-- Paths lead to the same names. -/
theorem follow_muted (root : Node) (here parts : List String) :
    follow root.muted here parts = follow root here parts := by
  induction parts generalizing here with
  | nil => rfl
  | cons part parts ih =>
    simp only [follow, at?_muted]
    cases root.at? here with
    | none => rfl
    | some n => simp only [Option.map_some, isFolder_muted, child?_muted, Option.isNone_map, ih]

theorem resolve_muted (root : Node) (here : List String) (path : String) :
    resolve root.muted here path = resolve root here path := by
  simp only [resolve, follow_muted]

/-- **What a path stands for** is found muted. -/
theorem find_muted (root : Node) (here : List String) (path : String) :
    find root.muted here path = (find root here path).map muted := by
  simp only [find, resolve_muted, at?_muted]
  cases resolve root here path with
  | error fault => rfl
  | ok names =>
    simp only [bind, Except.bind]
    cases root.at? names <;> rfl

theorem content_muted (n : Node) : n.muted.content = n.content := by
  cases n <;> simp [muted, content]

/-- **The content of a file** is the same. -/
theorem read_muted (root : Node) (here : List String) (path : String) :
    read root.muted here path = read root here path := by
  simp only [read, find_muted]
  cases find root here path with
  | error fault => rfl
  | ok n => exact n.content_muted

theorem checkWritable_muted (n? : Option Node) :
    checkWritable (n?.map muted) = checkWritable n? := by
  cases n? with
  | none => rfl
  | some n => cases n <;> simp [muted, checkWritable]

/-- **A file that can be written** is found under the same names. -/
theorem destination_muted (root : Node) (here : List String) (path : String) :
    destination root.muted here path = destination root here path := by
  simp only [destination, follow_muted, at?_muted]
  cases checkPath path with
  | error fault => rfl
  | ok =>
    simp only [bind, Except.bind]
    cases follow root here (Path.split path).dropLast with
    | error fault => rfl
    | ok names =>
      simp only
      cases root.at? names with
      | none => rfl
      | some n =>
        cases n with
        | file | program | barred => rfl
        | folder entries =>
          simp only [Option.map_some, muted_folder, lookup_map, checkWritable_muted]

theorem putChild_muted (n : Node) (name : String) (new : Node) :
    (n.putChild name new).muted = n.muted.putChild name new.muted := by
  cases n with
  | file | program | barred => simp [muted, putChild]
  | folder entries =>
    have hany : (entries.map fun entry => (entry.1, entry.2.muted)).any
        (fun entry => entry.1 == name) = entries.any fun entry => entry.1 == name := by
      rw [List.any_map]
      rfl
    simp only [putChild, muted_folder, hany]
    -- An entry with the name is replaced where it stands; a new one comes last.
    split
    · rw [muted_folder, List.map_map, List.map_map]
      congr 1
      refine List.map_congr_left fun entry _ => ?_
      simp only [Function.comp_apply]
      split <;> rfl
    · rw [muted_folder, List.map_append]
      rfl

theorem put_muted (n : Node) (names : List String) (new : Node) :
    (n.put names new).muted = n.muted.put names new.muted := by
  induction names generalizing n with
  | nil => rfl
  | cons name names ih =>
    have hchild : ((n.child? name).getD (folder [])).muted
        = (n.muted.child? name).getD (folder []) := by
      rw [child?_muted]
      cases n.child? name with
      | none => exact muted_folder []
      | some child => rfl
    simp only [put, putChild_muted, ih, hchild]

end Node

/-! ### Muted machines -/

namespace Machine

/-- A machine whose programs print nothing. -/
def muted (m : Machine) : Machine :=
  { m with folder := m.folder.muted, outside := m.outside.muted }

@[simp] theorem muted_told (m : Machine) : m.muted.told = m.told := rfl

@[simp] theorem muted_calls (m : Machine) : m.muted.calls = m.calls := rfl

@[simp] theorem muted_hear (m : Machine) (texts : List String) :
    (m.hear texts).muted = m.muted.hear texts := rfl

theorem tree_muted (m : Machine) : m.muted.tree = m.tree.muted :=
  (Node.put_muted m.outside m.base m.folder).symm

theorem find_muted (m : Machine) (path : String) :
    m.muted.find path = (m.find path).map Node.muted := by
  show m.muted.tree.find (m.start path) path = _
  rw [m.tree_muted]
  exact Node.find_muted _ _ _

theorem read_muted (m : Machine) (path : String) : m.muted.read path = m.read path := by
  show m.muted.tree.read (m.start path) path = _
  rw [m.tree_muted]
  exact Node.read_muted _ _ _

theorem destination_muted (m : Machine) (path : String) :
    m.muted.destination path = m.destination path := by
  show m.muted.tree.destination (m.start path) path = _
  rw [m.tree_muted]
  exact Node.destination_muted _ _ _

/-- What is put somewhere is muted there. -/
theorem put_muted (m : Machine) (names : List String) (new : Node) :
    (m.put names new).muted = m.muted.put names new.muted := by
  have hfolder : (m.put names new).folder.muted = (m.muted.put names new.muted).folder := by
    show (if m.isInside names then _ else _ : Node).muted = if m.isInside names then _ else _
    split
    · exact Node.put_muted _ _ _
    · rfl
  have houtside : (m.put names new).outside.muted = (m.muted.put names new.muted).outside := by
    show (if m.isInside names then _ else _ : Node).muted = if m.isInside names then _ else _
    split
    · rfl
    · exact Node.put_muted _ _ _
  show ({ m with
    folder := (m.put names new).folder.muted
    outside := (m.put names new).outside.muted } : Machine) = _
  rw [hfolder, houtside]
  rfl

/-- So is a file that is written; it is no program. -/
theorem save_muted (m : Machine) (names : List String) (content : List UInt8) :
    (m.save names content).muted = m.muted.save names content := by
  have hput := m.put_muted names (.file (m.disk.taken content))
  rw [Node.muted_file] at hput
  exact congrArg (fun n : Machine => { n with disk := m.disk.left content }) hput

theorem programAt_muted (m : Machine) (path : String) :
    m.muted.programAt path = (m.programAt path).map Tool.muted := by
  simp only [programAt, find_muted]
  cases m.find path with
  | error fault => rfl
  | ok n => cases n <;> rfl

/-- The same programs are there. -/
theorem locate_muted (m : Machine) (name : String) : m.muted.locate name = m.locate name := by
  have hprogram : ∀ path, (m.muted.programAt path).toBool = (m.programAt path).toBool := by
    intro path
    rw [programAt_muted]
    cases m.programAt path <;> rfl
  simp only [locate, hprogram]
  rfl

/-- **A program that is run** does the same, but prints nothing. -/
theorem launch_muted (m : Machine) (name : String) (arguments : List String) :
    m.muted.launch name arguments
      = ((m.launch name arguments).1.map Run.muted, (m.launch name arguments).2.muted) := by
  have hexecutable : m.muted.executable name = (m.executable name).map Tool.muted :=
    executable_map m.programAt_muted rfl name
  unfold launch
  rw [hexecutable]
  split
  · rfl
  · cases m.executable name with
    | error fault => rfl
    | ok tool =>
      show (Except.ok (tool.muted.run arguments), _) = (Except.ok (tool.run arguments).muted, _)
      rw [Tool.run_muted]
      rfl

end Machine

/-! ### Jobs that look and tell -/

variable {α β : Type}

/-- A job does nothing to a machine but tell it something, and it has the same result and tells the
    same on machines that differ only in what programs print. -/
def Job.TellsAlike (job : Job α) : Prop :=
  ∀ m m' : Machine, m.muted = m'.muted →
    ∃ a texts, job.run m = (a, m.hear texts) ∧ job.run m' = (a, m'.hear texts)

namespace Job.TellsAlike

theorem of_tells {job : Job α} {a : α} {texts : List String} (h : job.Tells a texts) :
    TellsAlike job := fun m m' _ => ⟨a, texts, h m, h m'⟩

theorem done (a : α) : TellsAlike (pure a) := of_tells (.done a)

/-- A request may only look, and it must not see what programs print. -/
theorem looks {request : Request} (hstays : ∀ m : Machine, (m.answer request).2 = m)
    (hmuted : ∀ m : Machine, (m.muted.answer request).1 = (m.answer request).1) :
    TellsAlike (ask request) := by
  intro m m' h
  refine ⟨(m.answer request).1, [], ?_, ?_⟩
  · rw [run_ask, m.hear_nil]
    exact Prod.ext rfl (hstays m)
  · rw [run_ask, m'.hear_nil]
    refine Prod.ext ?_ (hstays m')
    rw [← hmuted m, ← hmuted m', h]

theorem lookUp (name : String) : TellsAlike (ask (.lookUp name)) :=
  looks (fun _ => rfl) fun _ => rfl

theorem input : TellsAlike (ask .input) := looks (fun _ => rfl) fun _ => rfl

theorem isTerminal : TellsAlike (ask .isTerminal) := looks (fun _ => rfl) fun _ => rfl

theorem read (path : String) : TellsAlike (ask (.read path)) :=
  looks (fun _ => rfl) fun m => m.read_muted path

theorem isThere (path : String) : TellsAlike (ask (.isThere path)) :=
  looks (fun _ => rfl) fun m => by
    show (m.muted.find path).toBool = (m.find path).toBool
    rw [m.find_muted]
    cases m.find path <;> rfl

theorem locate (name : String) : TellsAlike (ask (.locate name)) :=
  looks (fun _ => rfl) fun m => m.locate_muted name

/-- Such jobs may go on with such jobs. -/
theorem bind {job : Job α} {f : α → Job β} (h : TellsAlike job) (h' : ∀ a, TellsAlike (f a)) :
    TellsAlike (job >>= f) := by
  intro m m' hmuted
  obtain ⟨a, texts, hrun, hrun'⟩ := h m m' hmuted
  have hheard : (m.hear texts).muted = (m'.hear texts).muted := by
    rw [Machine.muted_hear, Machine.muted_hear, hmuted]
  obtain ⟨b, texts', hnext, hnext'⟩ := h' a _ _ hheard
  refine ⟨b, texts ++ texts', ?_, ?_⟩
  · rw [run_bind, hrun, hnext, m.hear_hear]
  · rw [run_bind, hrun', hnext', m'.hear_hear]

end Job.TellsAlike

/-! ### The program until it fetches -/

theorem Job.readFile_tellsAlike (path : String) : (Job.readFile path).TellsAlike := by
  refine (Job.TellsAlike.read path).bind fun result => ?_
  cases result with
  | error fault => exact .done _
  | ok bytes =>
    simp only
    cases Text.decodeUtf8 bytes <;> exact .done _

theorem Job.readInput_tellsAlike : Job.readInput.TellsAlike := by
  refine Job.TellsAlike.input.bind fun given => ?_
  cases given with
  | error fault => exact .done _
  | ok bytes =>
    simp only
    cases Text.decodeUtf8 bytes <;> exact .done _

theorem Job.environment_tellsAlike (names : List String) : (Job.environment names).TellsAlike := by
  induction names with
  | nil => exact .done _
  | cons name names ih => exact (Job.TellsAlike.lookUp name).bind fun _ => ih.bind fun _ => .done _

namespace Settings

theorem loadFile_tellsAlike (path : String) : (loadFile path).TellsAlike := by
  refine (Job.readFile_tellsAlike path).bind fun result => ?_
  cases result with
  | error fault => exact .done _
  | ok text => cases h : parse text <;> simp only [h] <;> exact .done _

theorem load_tellsAlike (v : Program.Voice) (path? : Option String) :
    (load v.note path?).TellsAlike := by
  refine (Job.environment_tellsAlike _).bind fun e => ?_
  cases pathFor e path? with
  | error trouble => exact .done _
  | ok path =>
    refine (Job.TellsAlike.isThere path).bind fun there => ?_
    cases there with
    | true =>
      exact (Job.TellsAlike.of_tells (v.note_tells _)).bind fun _ => loadFile_tellsAlike path
    | false => exact (Job.TellsAlike.of_tells (v.note_tells _)).bind fun _ => .done _

end Settings

namespace Program

open CommandLine (Options)

theorem during_tellsAlike {job : Job (Except SystemFault α)} (h : job.TellsAlike) (text : String) :
    (during job text).run.TellsAlike := by
  refine h.bind fun result => ?_
  cases result <;> exact .done _

/-- **The document** is read alike. -/
theorem readDocument_tellsAlike (o : Options) : (readDocument o).run.TellsAlike := by
  unfold readDocument
  cases o.input with
  | none => exact during_tellsAlike Job.readInput_tellsAlike _
  | some path =>
    cases o.readsInput with
    | true => exact during_tellsAlike Job.readInput_tellsAlike _
    | false => exact during_tellsAlike (Job.readFile_tellsAlike path) _

/-- **The settings** are loaded alike. -/
theorem settings_tellsAlike (v : Voice) (o : Options) (config? : Option String) :
    (settings v o config?).run.TellsAlike :=
  (Settings.load_tellsAlike v config?).bind fun _ => .done _

/-- **The store command** is looked for alike. -/
theorem ensureStore_tellsAlike (v : Voice) (c : Lpass.StoreCommand) (document : String) :
    (ensureStore v c document).run.TellsAlike := by
  unfold ensureStore
  cases hasPlaceholders document with
  | false => exact .done _
  | true =>
    have hensure : c.ensure.TellsAlike := (Job.TellsAlike.locate c.name).bind fun _ => .done _
    refine hensure.bind fun result => ?_
    cases result with
    | error e => exact .done _
    | ok path => exact (Job.TellsAlike.of_tells (v.note_tells _)).bind fun _ => .done _

end Program

end SecretFill
