import AgentTermStatus.Lib.Run

namespace AgentTermStatus.Lib

/-!
# Components that share a world

The members of a list of named components take every operation one after the other, each in the
world that the one before it has left (`relay`); between two operations the world may change by
itself.

* `ConfinedTo`, `Spares` — of what part of the world a kind of members depends, and what part it
  leaves as it is;
* `Alike.op`, `Alike.run` — a member that is confined to a part which the others spare does
  among them what it does alone;
* `Lens` — a part of the world that can be put into it.
-/

/-- An operation of all members, or a change of the world that none of them makes. -/
inductive WorldOp (ι ω : Type*)
  | call (i : ι)
  | meanwhile (change : ω → ω)

section
variable {μ ν ι ω α π : Type*} (step : μ → ω → ι → (μ × ω) × α)

/-- A member alone in the world. -/
def alone (s : μ × ω) : WorldOp ι ω → (μ × ω) × List α
  | .call i           => ((step s.1 s.2 i).1, [(step s.1 s.2 i).2])
  | .meanwhile change => ((s.1, change s.2), [])

/-- Every member takes the operation, one after the other. -/
def relay (i : ι) : List (ν × μ) → ω → (List (ν × μ) × ω) × List (ν × α)
  | [], w => (([], w), [])
  | (name, m) :: ms, w =>
    let r := step m w i
    let rest := relay i ms r.1.2
    (((name, r.1.1) :: rest.1.1, rest.1.2), (name, r.2) :: rest.2)

/-- The members in their world; their answers to an operation make up one row. -/
def together (s : List (ν × μ) × ω) :
    WorldOp ι ω → (List (ν × μ) × ω) × List (List (ν × α))
  | .call i           => ((relay step i s.1 s.2).1, [(relay step i s.1 s.2).2])
  | .meanwhile change => ((s.1, change s.2), [])

/-- The answers of the member at one position. -/
def column (k : ℕ) (rows : List (List (ν × α))) : List (ν × α) := rows.filterMap fun row => row[k]?

@[simp] theorem column_append (k : ℕ) (xs ys : List (List (ν × α))) :
    column k (xs ++ ys) = column k xs ++ column k ys := List.filterMap_append ..

/-- The members keep their names, and answer under them. -/
theorem relay_names (i : ι) (ms : List (ν × μ)) (w : ω) :
    (relay step i ms w).1.1.map Prod.fst = ms.map Prod.fst ∧
    (relay step i ms w).2.map Prod.fst = ms.map Prod.fst := by
  induction ms generalizing w with
  | nil => exact ⟨rfl, rfl⟩
  | cons m ms ih => simp [relay, ih]

/-- As many members, and as many answers. -/
theorem relay_length (i : ι) (ms : List (ν × μ)) (w : ω) :
    (relay step i ms w).1.1.length = ms.length ∧ (relay step i ms w).2.length = ms.length := by
  obtain ⟨hmembers, hanswers⟩ := relay_names step i ms w
  constructor
  · simpa using congrArg List.length hmembers
  · simpa using congrArg List.length hanswers

/-- The second part of a list takes its turn in the world that the first has left. -/
theorem relay_append (i : ι) (xs ys : List (ν × μ)) (w : ω) :
    relay step i (xs ++ ys) w =
      (((relay step i xs w).1.1 ++ (relay step i ys (relay step i xs w).1.2).1.1,
        (relay step i ys (relay step i xs w).1.2).1.2),
        (relay step i xs w).2 ++ (relay step i ys (relay step i xs w).1.2).2) := by
  induction xs generalizing w with
  | nil => rfl
  | cons x xs ih => simp [relay, ih]

/-! ### Parts of the world -/

variable (part : ω → π)

/-- Members of the kind stay of it; what they do depends on a part of the world alone, and so does
    what becomes of that part. -/
structure ConfinedTo (P : μ → Prop) : Prop where
  kept : ∀ {m}, P m → ∀ w i, P (step m w i).1.1
  member : ∀ {m w w'}, P m → part w = part w' → ∀ i, (step m w i).1.1 = (step m w' i).1.1
  world : ∀ {m w w'}, P m → part w = part w' →
    ∀ i, part (step m w i).1.2 = part (step m w' i).1.2
  answer : ∀ {m w w'}, P m → part w = part w' → ∀ i, (step m w i).2 = (step m w' i).2

/-- Members of the kind stay of it, and leave a part of the world as it is. -/
structure Spares (Q : μ → Prop) : Prop where
  kept : ∀ {m}, Q m → ∀ w i, Q (step m w i).1.1
  world : ∀ {m}, Q m → ∀ w i, part (step m w i).1.2 = part w

/-- What a change makes of a part of the world depends on that part alone. -/
def Respects (change : ω → ω) : Prop :=
  ∀ w w', part w = part w' → part (change w) = part (change w')

variable {step part} {P Q : μ → Prop}

/-- Members that spare a part spare it one after the other. -/
theorem Spares.relay (h : Spares step part Q) (i : ι) {ms : List (ν × μ)} (hms : ∀ m ∈ ms, Q m.2)
    (w : ω) :
    part (relay step i ms w).1.2 = part w ∧ ∀ m ∈ (relay step i ms w).1.1, Q m.2 := by
  induction ms generalizing w with
  | nil => exact ⟨rfl, by simp [Lib.relay]⟩
  | cons m ms ih =>
    rw [List.forall_mem_cons] at hms
    obtain ⟨hworld, hkept⟩ := ih hms.2 (step m.2 w i).1.2
    refine ⟨hworld.trans (h.world hms.1 w i), ?_⟩
    exact List.forall_mem_cons.mpr ⟨h.kept hms.1 w i, hkept⟩

variable (part P Q)

/-- A member among others, and the same one alone: the part of the world it is confined to is the
    same, and the others spare it. -/
structure Alike (k : ℕ) (name : ν) (s : List (ν × μ) × ω) (s' : μ × ω) : Prop where
  placed : ∃ before after, s.1 = before ++ (name, s'.1) :: after ∧ before.length = k ∧
    (∀ m ∈ before, Q m.2) ∧ ∀ m ∈ after, Q m.2
  kind : P s'.1
  world : part s.2 = part s'.2

variable {part P Q}

/-- **Step lemma.** An operation does the same to the member among others and alone, and gets the
    same answer. -/
theorem Alike.op (hP : ConfinedTo step part P) (hQ : Spares step part Q) {k : ℕ} {name : ν}
    {s : List (ν × μ) × ω} {s' : μ × ω} (h : Alike part P Q k name s s') (op : WorldOp ι ω)
    (hop : ∀ change, op = .meanwhile change → Respects part change) :
    Alike part P Q k name (together step s op).1 (alone step s' op).1 ∧
    column k (together step s op).2 = (alone step s' op).2.map fun a => (name, a) := by
  obtain ⟨⟨before, after, hsplit, hlength, hbefore, hafter⟩, hkind, hworld⟩ := h
  cases op with
  | meanwhile change =>
    exact ⟨⟨⟨before, after, hsplit, hlength, hbefore, hafter⟩, hkind, hop change rfl _ _ hworld⟩,
      rfl⟩
  | call i =>
    obtain ⟨ms, w⟩ := s
    obtain ⟨m, w'⟩ := s'
    obtain rfl : ms = before ++ (name, m) :: after := hsplit
    -- those before it leave its part alone, and so do those behind it
    obtain ⟨hworld₁, hbefore'⟩ := hQ.relay i hbefore w
    have hpart : part (relay step i before w).1.2 = part w' := hworld₁.trans hworld
    obtain ⟨hworld₂, hafter'⟩ := hQ.relay i hafter (step m (relay step i before w).1.2 i).1.2
    obtain ⟨hmembers, hanswers⟩ := relay_length step i before w
    rw [hlength] at hmembers hanswers
    refine ⟨⟨⟨(relay step i before w).1.1, _, ?_, hmembers, hbefore', hafter'⟩,
      hP.kept hkind _ _, ?_⟩, ?_⟩
    · simp only [together, relay_append, alone]
      rw [relay, hP.member hkind hpart i]
    · simp only [together, relay_append, alone]
      rw [relay]
      exact hworld₂.trans (hP.world hkind hpart i)
    · simp only [together, relay_append, alone, column]
      rw [relay, hP.answer hkind hpart i]
      simp [hanswers]

/-- **Run lemma.** A run does the same to the member among others and alone. -/
theorem Alike.run (hP : ConfinedTo step part P) (hQ : Spares step part Q) {k : ℕ} {name : ν}
    {s : List (ν × μ) × ω} {s' : μ × ω} (h : Alike part P Q k name s s')
    {ops : List (WorldOp ι ω)}
    (hops : ∀ change, WorldOp.meanwhile change ∈ ops → Respects part change) :
    Alike part P Q k name (exec (together step) s ops) (exec (alone step) s' ops) ∧
    column k (trace (together step) s ops) =
      (trace (alone step) s' ops).map fun a => (name, a) := by
  induction ops generalizing s s' with
  | nil => exact ⟨h, rfl⟩
  | cons op ops ih =>
    obtain ⟨hstep, hanswer⟩ := h.op hP hQ op fun change hchange => hops change (by simp [hchange])
    obtain ⟨hrun, hanswers⟩ := ih hstep fun change hchange => hops change (by simp [hchange])
    refine ⟨hrun, ?_⟩
    rw [trace_cons, trace_cons, column_append, List.map_append, hanswer, hanswers]

end

/-- A part of a world that can be put into it. -/
structure Lens (ω π : Type*) where
  get : ω → π
  set : π → ω → ω
  get_set : ∀ p w, get (set p w) = p

end AgentTermStatus.Lib
