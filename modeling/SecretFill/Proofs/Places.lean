import SecretFill.Proofs.Diagnostics

namespace SecretFill

/-!
# The place of a result

A result is put in one place, printed or written to a file.  A place that cannot take all of it keeps
the beginning that it took.

* `Program.Delivers`, `Program.Spares`, `Program.Tears` — a text is put where it belongs; nothing is
  put anywhere; the beginning of a text is.
* `Program.delivery` — whether a text can be put where it belongs.
* `Program.writeResult_cases` — a result is written in one of these ways.
-/

open CommandLine (Options)

/-! ### What a place takes -/

/-- What a room takes as a whole is all there, -/
theorem Capacity.taken_of_ok {room : Capacity} {bytes : List UInt8} (h : room.result bytes = .ok ()) :
    room.taken bytes = bytes := by
  cases room with
  | endless => rfl
  | limited size fault =>
    simp only [Capacity.result] at h
    split at h
    · rename_i hle
      exact List.take_of_length_le hle
    · cases h

/-- and what it does not take as a whole is more than its size. -/
theorem Capacity.limited_of_error {room : Capacity} {bytes : List UInt8} {fault : SystemFault}
    (h : room.result bytes = .error fault) :
    ∃ size, room = .limited size fault ∧ size < bytes.length := by
  cases room with
  | endless => cases h
  | limited size fault' =>
    simp only [Capacity.result] at h
    split at h
    · cases h
    · rename_i hle
      obtain rfl := Except.error.inj h
      exact ⟨size, rfl, Nat.lt_of_not_le hle⟩

/-! ### Where a result is put -/

namespace Program

/-- All files are as they were. -/
def SameFiles (m n : Machine) : Prop := n.folder = m.folder ∧ n.outside = m.outside

/-- Nothing was printed, and all files are as they were. -/
def Spares (m n : Machine) : Prop := n.printed = m.printed ∧ SameFiles m n

/-- Bytes were put where the result belongs, and nowhere else: they were printed behind what had been
    printed, or they are the content of the file at a path. -/
def Holds (o : Options) (bytes : List UInt8) (m n : Machine) : Prop :=
  match o.output with
  | none => n.printed = m.printed ++ bytes ∧ SameFiles m n
  | some path =>
    n.printed = m.printed ∧
      ∃ names, m.destination path = .ok names ∧ SameFiles (m.put names (.file bytes)) n

/-- A result was put where it belongs. -/
def Delivers (o : Options) (text : String) (m n : Machine) : Prop :=
  Holds o (Text.encodeUtf8 text.toList) m n

/-- The place of a result has room for less, and what it took is the beginning of the result. -/
def Tears (o : Options) (text : String) (m n : Machine) : Prop :=
  ∃ place size fault, Program.place o m = .ok place ∧ m.capacity place = .limited size fault ∧
    size < (Text.encodeUtf8 text.toList).length ∧
    Holds o ((Text.encodeUtf8 text.toList).take size) m n

/-- Whether a result can be put where it belongs: there is such a place, and it takes all. -/
def delivery (o : Options) (text : String) (m : Machine) : Except SystemFault Unit :=
  (place o m).bind fun place => m.takes place text

/-- A result can be put where it belongs. -/
def CanDeliver (o : Options) (text : String) (m : Machine) : Prop := delivery o text m = .ok ()

section Left

variable {o : Options} {m n k : Machine} {text : String}

/-- What was put somewhere stays when nothing else is, -/
theorem Holds.trans {bytes : List UInt8} (h : Holds o bytes m n) (hk : Spares n k) :
    Holds o bytes m k := by
  unfold Holds SameFiles at h ⊢
  rw [hk.1, hk.2.1, hk.2.2]
  exact h

/-- be it a beginning only, -/
theorem Tears.trans (h : Tears o text m n) (hk : Spares n k) : Tears o text m k := by
  obtain ⟨place, size, fault, hplace, hroom, hsize, hholds⟩ := h
  exact ⟨place, size, fault, hplace, hroom, hsize, hholds.trans hk⟩

/-- and nothing stays nothing. -/
theorem Spares.trans (h : Spares m n) (hk : Spares n k) : Spares m k :=
  ⟨hk.1.trans h.1, hk.2.1.trans h.2.1, hk.2.2.trans h.2.2⟩

theorem left_trans (h : Spares m n ∨ Tears o text m n) (hk : Spares n k) :
    Spares m k ∨ Tears o text m k :=
  h.imp (·.trans hk) (·.trans hk)

end Left

/-- What a place took is there. -/
theorem holds_deliver {o : Options} {m : Machine} {place : Option (List String)} (text : String)
    (h : Program.place o m = .ok place) :
    Holds o ((m.capacity place).taken (Text.encodeUtf8 text.toList)) m (m.deliver place text) := by
  unfold Program.place at h
  unfold Holds
  cases houtput : o.output with
  | none =>
    simp only [houtput] at h
    obtain rfl := Except.ok.inj h
    exact ⟨rfl, rfl, rfl⟩
  | some path =>
    simp only [houtput] at h
    cases hnames : m.destination path with
    | error fault =>
      rw [hnames] at h
      cases h
    | ok names =>
      rw [hnames] at h
      obtain rfl := Except.ok.inj h
      exact ⟨rfl, names, hnames, rfl, rfl⟩

/-- **A result is written** as a whole where it belongs; or it cannot be, and then nothing is written
    or its beginning. -/
theorem writeResult_cases (o : Options) (text : String) (m : Machine) :
    (∃ n, CanDeliver o text m ∧ Delivers o text m n ∧ n.told = m.told ∧ n.calls = m.calls ∧
      (writeResult o text).run.run m = (.ok (), n)) ∨
    ∃ fault n, delivery o text m = .error fault ∧ (Spares m n ∨ Tears o text m n) ∧
      n.told = m.told ∧ n.calls = m.calls ∧
      (writeResult o text).run.run m = (.error (writeTrouble o fault), n) := by
  rw [writeResult_run]
  unfold CanDeliver delivery
  cases hplace : place o m with
  | error fault => exact .inr ⟨fault, m, rfl, .inl ⟨rfl, rfl, rfl⟩, rfl, rfl, rfl⟩
  | ok place =>
    have hholds := holds_deliver text hplace
    have htold := m.deliver_told place text
    have hcalls := m.deliver_calls place text
    simp only [Except.bind]
    cases htakes : m.takes place text with
    | ok _ =>
      rw [Capacity.taken_of_ok htakes] at hholds
      exact .inl ⟨_, rfl, hholds, htold, hcalls, rfl⟩
    | error fault =>
      obtain ⟨size, hroom, hsize⟩ := Capacity.limited_of_error htakes
      rw [hroom] at hholds
      exact .inr ⟨fault, _, rfl, .inr ⟨place, size, fault, hplace, hroom, hsize, hholds⟩, htold,
        hcalls, rfl⟩

/-- To write runs nothing. -/
theorem writeResult_calls (o : Options) (text : String) (m : Machine) :
    ((writeResult o text).run.run m).2.calls = m.calls := by
  rcases writeResult_cases o text m with
    ⟨n, -, -, -, hcalls, hwrite⟩ | ⟨fault, n, -, -, -, hcalls, hwrite⟩
  · rw [hwrite, hcalls]
  · rw [hwrite, hcalls]

end Program

end SecretFill
