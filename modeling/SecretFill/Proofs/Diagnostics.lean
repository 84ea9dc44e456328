import SecretFill.Proofs.Twins

namespace SecretFill

/-!
# Secrets are not told

The program runs on two machines whose programs print different secrets.  As long as the
placeholders of its document have the same fates, it ends with the same status, tells the same and
runs the same; only the document that it fills may differ.

* `Program.assignment?` — what a command line asks to be filled.
* `Machine.deliver` — where a text is put; `Program.writeResult_run` — how a result is written.
* `Program.AlikeEnds` — two ends of the program that differ only in the document.
* `Program.execute_alike` — so one run ends.
* `job_diagnostics` — and so does the program for every command line.
-/

open Lpass (StoreCommand)
open CommandLine (Options)

variable {α β : Type}

/-! ### What is to be filled -/

namespace Program

/-- The voice of nobody: nothing is logged. -/
def silent : Voice := ⟨⟨[]⟩, false⟩

/-- The settings do not depend on the voice. -/
theorem settings_voice (v v' : Voice) (o : Options) (config? : Option String) :
    (settings v o config?).run.SameButTold (settings v' o config?).run := by
  have hnote : ∀ notice, (v.note notice).SameButTold (v'.note notice) := fun notice =>
    .of_tells (v.note_tells notice) (v'.note_tells notice)
  have hload : (Settings.load v.note config?).SameButTold (Settings.load v'.note config?) := by
    refine (Job.SameButTold.refl _).bind fun e => ?_
    cases Settings.pathFor e config? with
    | error trouble => exact .refl _
    | ok path =>
      refine (Job.SameButTold.refl _).bind fun there => ?_
      cases there with
      | true => exact (hnote _).bind fun _ => .refl _
      | false => exact (hnote _).bind fun _ => .refl _
  exact hload.bind fun _ => .refl _

/-- What a run with some options fills: the document with the settings that hold for it, if both can
    be read and the handles are not only listed. -/
def assigned? (o : Options) (m : Machine) : Option (Settings × String) :=
  match ((readDocument o).run.run m).1 with
  | .error _ => none
  | .ok document =>
    if o.list then none
    else
      match ((settings silent o o.config).run.run m).1 with
      | .error _ => none
      | .ok s => some (s, document)

/-- What a command line asks to be filled. -/
def assignment? (arguments : List String) (m : Machine) : Option (Settings × String) :=
  match Options.parse (m.environment.get? CommandLine.configVariable) arguments with
  | .error _ => none
  | .ok o => assigned? o m

/-- A document with the values that a machine has for its placeholders. -/
def filledText (s : Settings) (document : String) (m : Machine) : String :=
  (Reference.fill (s.storeCommand.answers m) (segments document.toList)).output

end Program

/-! ### Writing the result -/

namespace Program

/-- A task goes on with the result of the first one, -/
theorem run_bind_ok {x : Task α} {f : α → Task β} {a : α} {m n : Machine}
    (h : x.run.run m = (.ok a, n)) : (x >>= f).run.run m = (f a).run.run n := by
  rw [ExceptT.run_bind, Job.run_bind, h]

/-- and it ends with its trouble. -/
theorem run_bind_error {x : Task α} {f : α → Task β} {trouble : Trouble} {m n : Machine}
    (h : x.run.run m = (.error trouble, n)) : (x >>= f).run.run m = (.error trouble, n) := by
  rw [ExceptT.run_bind, Job.run_bind, h]
  rfl

end Program

/-- Puts a text somewhere, as far as it is taken there: it is printed, or it is written to the file
    under some names. -/
def Machine.deliver (m : Machine) (place : Option (List String)) (text : String) : Machine :=
  let bytes := Text.encodeUtf8 text.toList
  match place with
  | none => (m.print bytes).2
  | some names => m.save names bytes

/-- How much is taken at a place. -/
def Machine.capacity (m : Machine) : Option (List String) → Capacity
  | none => m.outlet
  | some _ => m.disk

/-- Whether a text is taken as a whole where it is put. -/
def Machine.takes (m : Machine) (place : Option (List String)) (text : String) :
    Except SystemFault Unit :=
  (m.capacity place).result (Text.encodeUtf8 text.toList)

section Places

variable (m : Machine) (place : Option (List String)) (text : String)

@[simp] theorem Machine.deliver_told : (m.deliver place text).told = m.told := by
  cases place <;> rfl

@[simp] theorem Machine.deliver_calls : (m.deliver place text).calls = m.calls := by
  cases place <;> rfl

theorem Machine.deliver_hear (texts : List String) :
    (m.deliver place text).hear texts = (m.hear texts).deliver place text := by
  cases place <;> rfl

theorem Machine.muted_deliver :
    (m.deliver place text).muted = m.muted.deliver place text := by
  cases place with
  | none => rfl
  | some names => exact m.save_muted names _

theorem Machine.takes_muted : m.muted.takes place text = m.takes place text := by
  cases place <;> rfl

end Places

namespace Program

/-- The place of the result of a run: it is printed, or it goes to the file under some names. -/
def place (o : Options) (m : Machine) : Except SystemFault (Option (List String)) :=
  match o.output with
  | some path => (m.destination path).map some
  | none => .ok none

/-- The trouble with a result that cannot be written. -/
def writeTrouble (o : Options) (fault : SystemFault) : Trouble :=
  (Trouble.bare (.system fault)).during <|
    match o.output with
    | some path => s!"Failed to write output file: {path}"
    | none => "Failed to write to stdout"

/-- The place of a result does not depend on what programs print. -/
theorem place_muted (o : Options) (m : Machine) : place o m.muted = place o m := by
  unfold place
  cases o.output with
  | none => rfl
  | some path => exact congrArg (Except.map some) (m.destination_muted path)

/-- A task in which the system may report a fault is in trouble iff it does. -/
theorem during_run (job : Job (Except SystemFault α)) (words : String) (m : Machine) :
    (during job words).run.run m
      = ((job.run m).1.mapError fun fault => (Trouble.bare (.system fault)).during words,
        (job.run m).2) := by
  show Job.run (job >>= fun _ => _) m = _
  rw [Job.run_bind]
  cases (job.run m).1 <;> rfl

/-- **A result is written** to one place, which does not depend on it, as far as it is taken there;
    or there is no such place. -/
theorem writeResult_run (o : Options) (text : String) (m : Machine) :
    (writeResult o text).run.run m
      = match place o m with
        | .ok place => ((m.takes place text).mapError (writeTrouble o), m.deliver place text)
        | .error fault => (.error (writeTrouble o fault), m) := by
  unfold writeResult place writeTrouble
  cases o.output with
  | none => exact during_run _ _ m
  | some path =>
    refine (during_run _ _ m).trans ?_
    rw [Job.run_ask]
    simp only [Machine.answer, Machine.write]
    cases m.destination path <;> rfl

/-! ### Filling and telling -/

section Filling

variable (v : Voice) (o : Options) (s : Settings) (document : String)

/-- What is told when a document was filled, or was not. -/
def endTexts (cache : Cache) : Except Failure Report → List String
  | .ok r => v.texts (filledNotice r cache)
  | .error _ => []

/-- **A document is filled** by the walk over the store command, and its notices are told. -/
theorem fillDocument_run (m : Machine) :
    let e := (report s.policy document).run s.storeCommand.store ⟨.empty s.cachesEmpty, m⟩
    (fillDocument v o s document).run.run m
      = (e.result.mapError fun failure =>
          (Trouble.bare (.failure failure)).during s!"Failed to resolve {o.documentName}",
        e.session.store.hear
          (e.notices.flatMap v.texts ++ endTexts v e.session.cache e.result)) := by
  intro e
  show Job.run (_ >>= fun _ => _) m = _
  rw [Job.run_bind, Walk.perform_run]
  show Job.run (match e.result with
    | .ok r => _
    | .error failure => _) _ = _
  cases e.result with
  | ok r =>
    rw [Job.run_bind, v.note_tells, Machine.hear_hear]
    rfl
  | error failure =>
    rw [endTexts, List.append_nil]
    rfl

variable {v o s document}

/-- The end of filling tells nothing of secrets. -/
theorem endTexts_eq {cache cache' : Cache} {result result' : Except Failure Report}
    (hcache : cache.masked = cache'.masked)
    (hsummary : result.map Report.summary = result'.map Report.summary) :
    endTexts v cache result = endTexts v cache' result' := by
  have hsize : cache.size = cache'.size := by
    rw [← Cache.size_masked, hcache, Cache.size_masked]
  have hfetches : cache.masked.fetches = cache'.masked.fetches := by rw [hcache]
  replace hfetches : cache.fetches = cache'.fetches := hfetches
  rcases map_eq_cases hsummary with ⟨e, rfl, rfl⟩ | ⟨r, r', rfl, rfl, hsame⟩
  · rfl
  · have hresolved : r.resolved = r'.resolved := congrArg Prod.fst hsame
    simp only [endTexts, filledNotice, hsize, hfetches, hresolved]

/-- The output of a report over the store of a machine is the text that is to be delivered. -/
theorem output_eq_filledText {m : Machine} {r : Report}
    (h : Reference.report (s.storeCommand.answers m) s.policy document = .ok r) :
    r.output = filledText s document m := by
  rw [← Reference.eq_of_conclude h]
  rfl

/-- **A document with the same fates** is filled alike: it fails in the same way, or the two reports
    differ in nothing but their outputs, which are the texts to be delivered. -/
theorem fillDocument_alike {m m' : Machine} (h : m.muted = m'.muted)
    (hfates : SameFates s.storeCommand s.policy document m m') :
    ∃ calls texts, let n := ({ m with calls } : Machine).hear texts
      let n' := ({ m' with calls } : Machine).hear texts
      (∃ trouble, (fillDocument v o s document).run.run m = (.error trouble, n) ∧
        (fillDocument v o s document).run.run m' = (.error trouble, n')) ∨
      ∃ r r', (fillDocument v o s document).run.run m = (.ok r, n) ∧
        (fillDocument v o s document).run.run m' = (.ok r', n') ∧ r.summary = r'.summary ∧
        r.output = filledText s document m ∧ r'.output = filledText s document m' := by
  have hhonest : ∀ m : Machine, Session.Honest s.storeCommand.store (s.storeCommand.answers m)
      ⟨.empty s.cachesEmpty, m⟩ := fun m =>
    ⟨s.storeCommand.constant m m.calls, Cache.answer_empty s.cachesEmpty⟩
  have hresult := (hhonest m).report_result s.policy document
  have hresult' := (hhonest m').report_result s.policy document
  have hrun := fillDocument_run v o s document m
  have hrun' := fillDocument_run v o s document m'
  obtain ⟨htwins, hnotices, hsummary⟩ := report_twins hfates h s.cachesEmpty
  generalize (report s.policy document).run s.storeCommand.store ⟨.empty s.cachesEmpty, m⟩ = e at *
  generalize (report s.policy document).run s.storeCommand.store ⟨.empty s.cachesEmpty, m'⟩ = e'
    at *
  obtain ⟨calls, hstore, hstore'⟩ := htwins.calls
  have hend := endTexts_eq (v := v) htwins.cache hsummary
  simp only [hstore, hnotices, hend] at hrun
  simp only [hstore'] at hrun'
  generalize e'.notices.flatMap v.texts ++ endTexts v e'.session.cache e'.result = texts
    at hrun hrun'
  refine ⟨calls, texts, ?_⟩
  -- The same fates give the same summary: the same failure, or two reports that differ in their
  -- outputs.
  rcases map_eq_cases hsummary with ⟨failure, hfailed, hfailed'⟩ | ⟨r, r', hok, hok', hsame⟩
  · rw [hfailed] at hrun
    rw [hfailed'] at hrun'
    exact .inl ⟨_, hrun, hrun'⟩
  · rw [hok] at hrun hresult
    rw [hok'] at hrun' hresult'
    exact .inr ⟨r, r', hrun, hrun', hsame, output_eq_filledText hresult.symm,
      output_eq_filledText hresult'.symm⟩

end Filling

/-! ### Two ends -/

/-- Two ends are alike: there is the same result, and the machines differ only in what programs
    print, or besides in the text that was put at one place. -/
inductive AlikeEnds (text? text'? : Option String) : α × Machine → α × Machine → Prop where
  /-- Nothing else differs. -/
  | same {a : α} {n n' : Machine} (h : n.muted = n'.muted) :
    AlikeEnds text? text'? (a, n) (a, n')
  /-- Two texts were put at the same place. -/
  | delivered {a : α} {n n' base : Machine} {place : Option (List String)} {text text' : String}
    (htext : text? = some text) (htext' : text'? = some text')
    (h : n.muted = base.deliver place text) (h' : n'.muted = base.deliver place text') :
    AlikeEnds text? text'? (a, n) (a, n')

namespace AlikeEnds

variable {text? text'? : Option String} {m m' : Machine}

/-- Alike ends have the same result, -/
theorem result_eq {e e' : α × Machine} (h : AlikeEnds text? text'? e e') : e.1 = e'.1 := by
  cases h <;> rfl

/-- the same was told, -/
theorem told_eq {e e' : α × Machine} (h : AlikeEnds text? text'? e e') : e.2.told = e'.2.told := by
  cases h with
  | @same _ n n' h => rw [← n.muted_told, h, n'.muted_told]
  | @delivered _ n n' base place text text' _ _ h h' =>
    rw [← n.muted_told, h, ← n'.muted_told, h', base.deliver_told, base.deliver_told]

/-- and the same was run. -/
theorem calls_eq {e e' : α × Machine} (h : AlikeEnds text? text'? e e') :
    e.2.calls = e'.2.calls := by
  cases h with
  | @same _ n n' h => rw [← n.muted_calls, h, n'.muted_calls]
  | @delivered _ n n' base place text text' _ _ h h' =>
    rw [← n.muted_calls, h, ← n'.muted_calls, h', base.deliver_calls, base.deliver_calls]

/-- Who only tells keeps ends alike. -/
theorem bind_tells {job job' : Job α} {f : α → Job β}
    (h : AlikeEnds text? text'? (job.run m) (job'.run m'))
    (hf : ∀ a, ∃ b texts, (f a).Tells b texts) :
    AlikeEnds text? text'? ((job >>= f).run m) ((job' >>= f).run m') := by
  rw [Job.run_bind, Job.run_bind]
  generalize job.run m = e at h
  generalize job'.run m' = e' at h
  cases h with
  | @same a n n' h =>
    obtain ⟨b, texts, htells⟩ := hf a
    rw [htells n, htells n']
    exact .same (congrArg (·.hear texts) h)
  | @delivered a n n' base place text text' htext htext' h h' =>
    obtain ⟨b, texts, htells⟩ := hf a
    rw [htells n, htells n']
    -- What is told afterwards does not touch what was delivered.
    have hheard : (n.hear texts).muted = (base.hear texts).deliver place text := by
      rw [← Machine.deliver_hear, ← h, Machine.muted_hear]
    have hheard' : (n'.hear texts).muted = (base.hear texts).deliver place text' := by
      rw [← Machine.deliver_hear, ← h', Machine.muted_hear]
    exact .delivered htext htext' hheard hheard'

/-- What only looks and tells may come first. -/
theorem of_tellsAlike {job : Job α} {f : α → Job β} (hjob : job.TellsAlike)
    (h : m.muted = m'.muted)
    (hnext : ∀ a texts, job.run m = (a, m.hear texts) →
      (m.hear texts).muted = (m'.hear texts).muted →
      AlikeEnds text? text'? ((f a).run (m.hear texts)) ((f a).run (m'.hear texts))) :
    AlikeEnds text? text'? ((job >>= f).run m) ((job >>= f).run m') := by
  obtain ⟨a, texts, hrun, hrun'⟩ := hjob m m' h
  have hheard : (m.hear texts).muted = (m'.hear texts).muted := congrArg (·.hear texts) h
  rw [Job.run_bind, Job.run_bind, hrun, hrun']
  exact hnext a texts hrun hheard

/-- So may a task of this kind; in trouble, it ends the other one. -/
theorem of_tellsAlike_task {x : Task α} {f : α → Task β} (hx : x.run.TellsAlike)
    (h : m.muted = m'.muted)
    (hnext : ∀ a texts, x.run.run m = (.ok a, m.hear texts) →
      (m.hear texts).muted = (m'.hear texts).muted →
      AlikeEnds text? text'? ((f a).run.run (m.hear texts)) ((f a).run.run (m'.hear texts))) :
    AlikeEnds text? text'? ((x >>= f).run.run m) ((x >>= f).run.run m') := by
  refine of_tellsAlike hx h fun result texts hrun hheard => ?_
  cases result with
  | error trouble => exact .same hheard
  | ok a => exact hnext a texts hrun hheard

end AlikeEnds

/-! ### One run -/

section Execution

variable (v : Voice) (o : Options) {m m' : Machine}

/-- Who tells of failures knows only the summary of a report. -/
theorem tellFailures_eq {r r' : Report} (h : r.summary = r'.summary) :
    tellFailures v r = tellFailures v r' := by
  obtain ⟨output, resolved, failures⟩ := r
  obtain ⟨output', resolved', failures'⟩ := r'
  obtain ⟨rfl, rfl⟩ : resolved = resolved' ∧ failures = failures' := Prod.mk.inj h
  rfl

/-- All that is done then is telling. -/
theorem tellFailures_tells (r : Report) : ∃ result texts,
    (tellFailures v r).run.Tells result texts := by
  unfold tellFailures
  split
  · exact ⟨_, _, .done _⟩
  · exact ⟨_, _, (Job.Tells.forM v.unresolved_tells r.failures).bind (.done _)⟩

/-- **Filling, writing and telling** end alike, if of both texts all is taken or of neither. -/
theorem fillAndWrite_alike (h : m.muted = m'.muted) {s : Settings} {document : String}
    (hfates : SameFates s.storeCommand s.policy document m m')
    (hroom : ∀ place, Program.place o m = .ok place →
      m.takes place (filledText s document m) = m.takes place (filledText s document m'))
    {text? text'? : Option String} (htext : text? = some (filledText s document m))
    (htext' : text'? = some (filledText s document m')) :
    let filling : Task Unit := do
      let r ← fillDocument v o s document
      writeResult o r.output
      tellFailures v r
    AlikeEnds text? text'? (filling.run.run m) (filling.run.run m') := by
  intro filling
  obtain ⟨calls, texts, hfill⟩ := fillDocument_alike (v := v) (o := o) h hfates
  let n := ({ m with calls } : Machine).hear texts
  let n' := ({ m' with calls } : Machine).hear texts
  have hmuted : n.muted = n'.muted :=
    congrArg (fun k : Machine => ({ k with calls } : Machine).hear texts) h
  rcases hfill with ⟨trouble, hrun, hrun'⟩ | ⟨r, r', hrun, hrun', hsame, hout, hout'⟩
  · rw [run_bind_error hrun, run_bind_error hrun']
    exact .same hmuted
  · -- The place does not depend on the text, nor on what was run and told before.
    have hwritten : AlikeEnds text? text'? ((writeResult o r.output).run.run n)
        ((writeResult o r'.output).run.run n') := by
      rw [writeResult_run, writeResult_run, ← place_muted o n', ← hmuted, place_muted]
      cases hplace : Program.place o n with
      | error fault => exact .same hmuted
      | ok place =>
        have htakes : n.takes place r.output = n'.takes place r'.output := by
          have halike : n.takes place r.output = n.takes place r'.output := by
            rw [hout, hout']
            exact hroom place hplace
          rw [halike, ← n.takes_muted, hmuted, n'.takes_muted]
        simp only [htakes]
        rw [hout, hout']
        refine .delivered htext htext' (n.muted_deliver place _) ?_
        rw [hmuted, n'.muted_deliver]
    rw [run_bind_ok hrun, run_bind_ok hrun', ← tellFailures_eq v hsame]
    refine hwritten.bind_tells fun result => ?_
    cases result with
    | error trouble => exact ⟨_, _, .done _⟩
    | ok => exact tellFailures_tells v r

/-- What is to be filled is what is read, whatever was told. -/
theorem assigned?_of_runs {document : String} {s : Settings} {texts texts' : List String}
    (hlist : o.list = false) (hread : (readDocument o).run.run m = (.ok document, m.hear texts))
    (hload : (settings v o o.config).run.run (m.hear texts) = (.ok s, (m.hear texts).hear texts')) :
    assigned? o m = some (s, document) := by
  obtain ⟨told, hsilent⟩ := settings_voice v silent o o.config (m.hear texts) m.told
  have hloaded : ((settings silent o o.config).run.run m).1 = .ok s := by
    show ((settings silent o o.config).run.run { m.hear texts with told := m.told }).1 = .ok s
    rw [hsilent, hload]
  simp [assigned?, hread, hlist, hloaded]

/-- What is delivered does not depend on what was told. -/
theorem filledText_hear (s : Settings) (document : String) (texts : List String) :
    filledText s document (m.hear texts) = filledText s document m := by
  simp only [filledText, s.storeCommand.answers_hear]

/-- Of the two texts that are delivered on two machines, all is taken where they are put, or of
    neither. -/
def RoomAlike (o : Options) (m m' : Machine) : Prop :=
  ∀ s document place, assigned? o m = some (s, document) → Program.place o m = .ok place →
    m.takes place (filledText s document m) = m.takes place (filledText s document m')

/-- With room for any number of bytes, all is taken of both. -/
theorem roomAlike_of_endless {o : Options} {m m' : Machine} (houtlet : m.outlet = .endless)
    (hdisk : m.disk = .endless) : RoomAlike o m m' := by
  intro s document place _ _
  have hroom : m.capacity place = .endless := by
    cases place
    · exact houtlet
    · exact hdisk
  unfold Machine.takes
  rw [hroom]
  rfl

/-- **One run** ends alike on two machines, if what it fills has the same fates on both, and if of
    the two texts all is taken or of neither. -/
theorem execute_alike (h : m.muted = m'.muted)
    (hfates : ∀ s document, assigned? o m = some (s, document) →
      SameFates s.storeCommand s.policy document m m')
    (hroom : RoomAlike o m m') :
    AlikeEnds ((assigned? o m).map fun (s, document) => filledText s document m)
      ((assigned? o m).map fun (s, document) => filledText s document m')
      ((execute v o).run.run m) ((execute v o).run.run m') := by
  refine .of_tellsAlike_task (readDocument_tellsAlike o) h fun document texts hread hheard => ?_
  cases hlist : o.list with
  | true =>
    -- The same listing is put at the same place.
    simp only [if_pos]
    rw [writeResult_run, writeResult_run, ← place_muted o (m'.hear texts), ← hheard, place_muted]
    cases place o (m.hear texts) with
    | error fault => exact .same hheard
    | ok place =>
      simp only [← Machine.takes_muted (m.hear texts), hheard, Machine.takes_muted (m'.hear texts)]
      refine .same ?_
      rw [Machine.muted_deliver, hheard, Machine.muted_deliver]
  | false =>
    simp only [Bool.false_eq_true]
    refine .of_tellsAlike_task (settings_tellsAlike v o o.config) hheard
      fun s texts' hload hheard' => ?_
    -- So far both runs only looked and told: the document and its settings are the assigned ones.
    have hassigned := assigned?_of_runs v o hlist hread hload
    refine .of_tellsAlike_task (ensureStore_tellsAlike v s.storeCommand document) hheard'
      fun _ texts'' _ hheard'' => ?_
    refine fillAndWrite_alike v o hheard'' ((((hfates s document hassigned).hear texts).hear
      texts').hear texts'') (fun place hplace => ?_) ?_ ?_
    · simp only [filledText_hear]
      exact hroom s document place hassigned hplace
    · simp only [hassigned, filledText_hear, Option.map_some]
    · simp only [hassigned, filledText_hear, Option.map_some]

end Execution

/-! ### The program -/

section Whole

variable {m m' : Machine}

theorem assigned?_hear (o : Options) (m : Machine) (texts : List String) :
    assigned? o (m.hear texts) = assigned? o m := by
  have hstays : ∀ {α : Type} (job : Job α), (job.run (m.hear texts)).1 = (job.run m).1 := by
    intro α job
    obtain ⟨told, hrun⟩ := job.run_told m (m.told ++ texts)
    show (job.run { m with told := m.told ++ texts }).1 = _
    rw [hrun]
  simp only [assigned?, hstays]

/-- What was told makes no difference for what is to be filled, nor for its fates. -/
theorem sameFates_hear {o : Options} (hfates : ∀ s document, assigned? o m = some (s, document) →
      SameFates s.storeCommand s.policy document m m') (texts : List String) :
    ∀ s document, assigned? o (m.hear texts) = some (s, document) →
      SameFates s.storeCommand s.policy document (m.hear texts) (m'.hear texts) := by
  intro s document hassigned
  rw [assigned?_hear] at hassigned
  exact (hfates s document hassigned).hear texts

/-- Nor does it make one for what is taken. -/
theorem RoomAlike.hear {o : Options} (hroom : RoomAlike o m m') (texts : List String) :
    RoomAlike o (m.hear texts) (m'.hear texts) := by
  intro s document place hassigned hplace
  rw [assigned?_hear] at hassigned
  simp only [filledText_hear]
  exact hroom s document place hassigned hplace

/-- **A command line that was read** is run alike. -/
theorem runOptions_alike (o : Options) (h : m.muted = m'.muted)
    (hfates : ∀ s document, assigned? o m = some (s, document) →
      SameFates s.storeCommand s.policy document m m') (hroom : RoomAlike o m m') :
    AlikeEnds ((assigned? o m).map fun (s, document) => filledText s document m)
      ((assigned? o m).map fun (s, document) => filledText s document m')
      ((runOptions o).run m) ((runOptions o).run m') := by
  refine .of_tellsAlike (Job.environment_tellsAlike _) h fun e texts _ hheard => ?_
  refine .of_tellsAlike .isTerminal hheard fun terminal texts' _ hheard' => ?_
  refine AlikeEnds.bind_tells ?_ fun result => ?_
  · have halike := execute_alike ⟨filterFor e o, isColoured e terminal⟩ o hheard'
      (sameFates_hear (sameFates_hear hfates texts) texts') ((hroom.hear texts).hear texts')
    simpa only [assigned?_hear, filledText_hear] using halike
  · cases result with
    | ok => exact ⟨_, _, .done _⟩
    | error trouble =>
      exact ⟨_, _, (Voice.diagnosis_tells _ trouble.diagnosis).bind (.done _)⟩

/-- What ends early shows nothing of programs. -/
theorem stop_alike (config? : Option String) (early : CommandLine.Stop) (h : m.muted = m'.muted) :
    AlikeEnds none none ((stop config? early).run m) ((stop config? early).run m') := by
  cases early with
  | usage e => exact .same (congrArg (fun n : Machine => n.hear [_]) h)
  | help isLong => exact .same (congrArg (fun n : Machine => n.deliver none _) h)
  | version => exact .same (congrArg (fun n : Machine => n.deliver none _) h)

/-- **The program** ends alike. -/
theorem job_alike (arguments : List String) (h : m.muted = m'.muted)
    (hfates : ∀ s document, assignment? arguments m = some (s, document) →
      SameFates s.storeCommand s.policy document m m')
    (hroom : ∀ o, Options.parse (m.environment.get? CommandLine.configVariable) arguments = .ok o →
      RoomAlike o m m') :
    AlikeEnds ((assignment? arguments m).map fun (s, document) => filledText s document m)
      ((assignment? arguments m).map fun (s, document) => filledText s document m')
      ((job arguments).run m) ((job arguments).run m') := by
  refine .of_tellsAlike (.lookUp _) h fun config? texts hlooked hheard => ?_
  obtain rfl : m.environment.get? CommandLine.configVariable = config? := congrArg Prod.fst hlooked
  cases hparse : Options.parse (m.environment.get? CommandLine.configVariable) arguments with
  | error early =>
    simp only [assignment?, hparse]
    exact stop_alike _ early hheard
  | ok o =>
    have hassignment : assignment? arguments m = assigned? o m := by
      simp only [assignment?, hparse]
    rw [hassignment] at hfates ⊢
    have halike := runOptions_alike o hheard (sameFates_hear hfates texts)
      ((hroom o hparse).hear texts)
    simpa only [assigned?_hear, filledText_hear] using halike

end Whole

end Program

/-- **Secrets do not influence what the program tells.**  If it runs on two machines that differ
    only in what their programs print, and what it fills has the same fates on both, then it ends
    with the same status, it has told the same, and it has run the same; the machines that it
    leaves differ in nothing else but the filled document, which is at the same place.  This place
    must take all of both documents or of neither; with room for any number of bytes it does. -/
theorem job_diagnostics (arguments : List String) {m m' : Machine} (h : m.muted = m'.muted)
    (hfates : ∀ s document, Program.assignment? arguments m = some (s, document) →
      SameFates s.storeCommand s.policy document m m')
    (hroom : ∀ o, Options.parse (m.environment.get? CommandLine.configVariable) arguments = .ok o →
      Program.RoomAlike o m m') :
    let e := (Program.job arguments).run m
    let e' := (Program.job arguments).run m'
    e.1 = e'.1 ∧ e.2.told = e'.2.told ∧ e.2.calls = e'.2.calls ∧
      (e.2.muted = e'.2.muted ∨
        ∃ s document place, ∃ n : Machine,
          Program.assignment? arguments m = some (s, document) ∧
          e.2.muted = n.deliver place (Program.filledText s document m) ∧
          e'.2.muted = n.deliver place (Program.filledText s document m')) := by
  intro e e'
  have halike : Program.AlikeEnds _ _ e e' := Program.job_alike arguments h hfates hroom
  refine ⟨halike.result_eq, halike.told_eq, halike.calls_eq, ?_⟩
  generalize e = end₁ at halike ⊢
  generalize e' = end₂ at halike ⊢
  cases halike with
  | same hsame => exact .inl hsame
  | @delivered status n n' base place text text' htext htext' hput hput' =>
    obtain ⟨⟨s, document⟩, hassigned, rfl⟩ := Option.map_eq_some_iff.1 htext
    rw [hassigned] at htext'
    obtain rfl := Option.some.inj htext'
    exact .inr ⟨s, document, place, base, hassigned, hput, hput'⟩

/-- Two machines with different ports: the program fills one or the other in, tells of the malformed
    handle, and does not tell the port. -/
theorem job_diagnostics_ports :
    let m (port : String) : Machine :=
      { environment := ⟨[("PATH", "/home/bin"), ("HOME", "/home")]⟩
        location := "/home"
        folder := .folder [("bin", .folder [("lpass", .program
          ⟨[], ⟨0, "", Text.encodeUtf8 ("port: " ++ port).toList, .exit 0⟩⟩)])]
        input := Text.encodeUtf8 "((db/Notes/port)) ((x))".toList
        printed := []
        told := []
        calls := [] }
    let s : Settings := ⟨"lpass", 300, true, .marker⟩
    let document := "((db/Notes/port)) ((x))"
    let e (port : String) := (Program.job ["--keep-going"]).run (m port)
    SameFates s.storeCommand s.policy document (m "80") (m "81") ∧
      (e "80").1 = (e "81").1 ∧ (e "80").2.told = (e "81").2.told ∧
      (e "80").2.calls = (e "81").2.calls ∧
      Program.filledText s document (m "80") ≠ Program.filledText s document (m "81") := by
  intro m s document e
  have hmuted : (m "80").muted = (m "81").muted := by
    simp only [m, Machine.muted, Node.muted, Node.mutedEntries, Tool.muted, Run.muted, List.map_nil]
  have hassigned : Program.assignment? ["--keep-going"] (m "80") = some (s, document) := by
    decide +kernel
  have hfates : SameFates s.storeCommand s.policy document (m "80") (m "81") := by
    constructor
    · decide +kernel
    · intro handles raw hraw handle hparse
      have hvisited : s.policy.visited handles (handles.map
          (Reference.resolve (s.storeCommand.answers (m "80")))) = ["db/Notes/port", "x"] := by
        decide +kernel
      have hfirst : Handle.parse "db/Notes/port" = .ok ⟨"db", "Notes", some "port"⟩ := by
        decide
      have hsecond : Handle.parse "x"
          = .error (.malformedHandle "x" HandleFault.tooFew.message) := by
        decide
      rw [hvisited, List.mem_cons, List.mem_singleton] at hraw
      rcases hraw with rfl | rfl
      · rw [hfirst] at hparse
        cases hparse
        decide +kernel
      · rw [hsecond] at hparse
        cases hparse
  obtain ⟨hstatus, htold, hcalls, -⟩ := job_diagnostics ["--keep-going"] hmuted
    (fun s' document' h => by
      rw [hassigned] at h
      cases h
      exact hfates)
    fun _ _ => Program.roomAlike_of_endless rfl rfl
  have htexts : Program.filledText s document (m "80")
      ≠ Program.filledText s document (m "81") := by
    decide +kernel
  simp only [e]
  exact ⟨hfates, hstatus, htold, hcalls, htexts⟩

end SecretFill
