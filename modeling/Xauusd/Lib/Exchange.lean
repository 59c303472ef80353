/-
  A client of a service over a network that loses requests and responses.

  The client is a program: it looks at its own state, changes it, and asks the
  service, which answers or not.  `serve a s` is the answer to the request `a`
  and the service it leaves.

  * `Fate`: what becomes of one exchange;
  * `Safe I Q`: whatever is lost, `I` holds at every point of the program and
    `Q` of what it returns;
  * `Session`: a client that runs one program at a time and may be restarted at
    any point;
  * `session_invariant`: **if every program is safe, `I` holds in every state of
    every session, and `Q` of everything that was returned**;
  * `arrive`: the program when everything arrives;
  * `run_arrive`: the session does what `arrive` says.
-/
import Xauusd.Lib.Machine

/-- A program with its own state `τ`, requests `α`, and for each its answers. -/
inductive Client (τ α : Type) (β : α → Type) (ρ : Type) where
  | done (result : ρ)
  | look (next : τ → Client τ α β ρ)
  | keep (change : τ → τ) (next : Client τ α β ρ)
  | ask (request : α) (next : Option (β request) → Client τ α β ρ)

namespace Exchange

variable {σ τ α κ ρ θ : Type} {β : α → Type}

/-- The service and the client's own state. -/
structure World (σ τ : Type) where
  service : σ
  own : τ

/-- What becomes of one exchange. -/
inductive Fate where
  | arrives
  | requestLost
  | responseLost
  deriving DecidableEq, Repr

/-- The answer the client gets, and the service after it. -/
def Fate.exchange (serve : (a : α) → σ → β a × σ) (a : α) (s : σ) : Fate → Option (β a) × σ
  | arrives => (some (serve a s).1, (serve a s).2)
  | requestLost => (none, s)
  | responseLost => (none, (serve a s).2)

/-- `I` holds at every point of the program and `Q` at its end, whatever is lost. -/
def Safe (serve : (a : α) → σ → β a × σ) (I : World σ τ → Prop) (Q : ρ → World σ τ → Prop) :
    Client τ α β ρ → World σ τ → Prop
  | .done result, w => I w ∧ Q result w
  | .look next, w => I w ∧ Safe serve I Q (next w.own) w
  | .keep change next, w => I w ∧ Safe serve I Q next { w with own := change w.own }
  | .ask a next, w => I w ∧ ∀ fate : Fate,
      Safe serve I Q (next (fate.exchange serve a w.service).1)
        { w with service := (fate.exchange serve a w.service).2 }

theorem Safe.here {serve : (a : α) → σ → β a × σ} {I : World σ τ → Prop} {Q : ρ → World σ τ → Prop}
    {p : Client τ α β ρ} {w : World σ τ} (h : Safe serve I Q p w) : I w := by
  cases p with
  | done result => exact h.1
  | look next => exact h.1
  | keep change next => exact h.1
  | ask a next => exact h.1

/-- To ask is safe if all three fates are. -/
theorem safe_ask {serve : (a : α) → σ → β a × σ} {I : World σ τ → Prop} {Q : ρ → World σ τ → Prop}
    {a : α} {next : Option (β a) → Client τ α β ρ} {w : World σ τ} (h : I w)
    (hlost : Safe serve I Q (next none) w)
    (hunheard : Safe serve I Q (next none) { w with service := (serve a w.service).2 })
    (harrives : Safe serve I Q (next (some (serve a w.service).1)) { w with service := (serve a w.service).2 }) :
    Safe serve I Q (.ask a next) w := by
  refine ⟨h, ?_⟩
  intro fate
  cases fate with
  | arrives => exact harrives
  | requestLost => exact hlost
  | responseLost => exact hunheard

/-! ## Sessions -/

/-- What a program returned, for which job, and the world it returned in. -/
structure Return (σ τ κ ρ : Type) where
  job : κ
  result : ρ
  world : World σ τ

structure Session (σ τ α : Type) (β : α → Type) (κ ρ : Type) where
  world : World σ τ
  running : Option (κ × Client τ α β ρ)
  returned : List (Return σ τ κ ρ)

/-- A job is started, the running program takes one step, or the client is
    restarted. -/
inductive SessionAction (κ θ : Type) where
  | start (job : κ)
  | advance (fate : Fate)
  | restart (how : θ)

/-- One step of the running program. -/
def Session.advance (serve : (a : α) → σ → β a × σ) (s : Session σ τ α β κ ρ) (fate : Fate) :
    Session σ τ α β κ ρ :=
  match s.running with
  | none => s
  | some (job, .done result) =>
    { s with running := none, returned := ⟨job, result, s.world⟩ :: s.returned }
  | some (job, .look next) => { s with running := some (job, next s.world.own) }
  | some (job, .keep change next) =>
    { s with world := { s.world with own := change s.world.own }, running := some (job, next) }
  | some (job, .ask a next) =>
    { s with
      world := { s.world with service := (fate.exchange serve a s.world.service).2 }
      running := some (job, next (fate.exchange serve a s.world.service).1) }

/-- A job is started when none is running; a restart abandons the running one. -/
def Session.step (serve : (a : α) → σ → β a × σ) (program : κ → Client τ α β ρ) (reboot : θ → τ → τ)
    (s : Session σ τ α β κ ρ) : SessionAction κ θ → Unit × Session σ τ α β κ ρ
  | .start job =>
    match s.running with
    | none => ((), { s with running := some (job, program job) })
    | some _ => ((), s)
  | .advance fate => ((), s.advance serve fate)
  | .restart how => ((), { s with world := { s.world with own := reboot how s.world.own }, running := none })

/-- What holds in every state of a session. -/
structure Session.Sound (serve : (a : α) → σ → β a × σ) (I : World σ τ → Prop)
    (Q : κ → ρ → World σ τ → Prop) (s : Session σ τ α β κ ρ) : Prop where
  world : I s.world
  running : ∀ job p, s.running = some (job, p) → Safe serve I (Q job) p s.world
  returned : ∀ r ∈ s.returned, Q r.job r.result r.world

variable {serve : (a : α) → σ → β a × σ} {program : κ → Client τ α β ρ} {reboot : θ → τ → τ}
  {I : World σ τ → Prop} {Q : κ → ρ → World σ τ → Prop} {s : Session σ τ α β κ ρ}

theorem sound_advance (h : s.Sound serve I Q) (fate : Fate) : (s.advance serve fate).Sound serve I Q := by
  unfold Session.advance
  split
  · exact h
  · next job result hrun =>
    have hdone := (h.running job _ hrun).2
    refine ⟨h.world, ?_, ?_⟩
    · simp
    · simpa using ⟨hdone, h.returned⟩
  · next job next hrun =>
    refine ⟨h.world, ?_, h.returned⟩
    rintro job' p hp
    obtain ⟨rfl, rfl⟩ := by simpa using hp
    exact (h.running job _ hrun).2
  · next job change next hrun =>
    have hnext := (h.running job _ hrun).2
    refine ⟨hnext.here, ?_, h.returned⟩
    rintro job' p hp
    obtain ⟨rfl, rfl⟩ := by simpa using hp
    exact hnext
  · next job a next hrun =>
    have hnext := (h.running job _ hrun).2 fate
    refine ⟨hnext.here, ?_, h.returned⟩
    rintro job' p hp
    obtain ⟨rfl, rfl⟩ := by simpa using hp
    exact hnext

/-- **The rule of sessions.** -/
theorem session_invariant (hprogram : ∀ job w, I w → Safe serve I (Q job) (program job) w)
    (hreboot : ∀ how w, I w → I { w with own := reboot how w.own }) (h : s.Sound serve I Q)
    (actions : List (SessionAction κ θ)) :
    (Machine.run (Session.step serve program reboot) s actions).Sound serve I Q := by
  refine Machine.run_invariant (C := fun _ _ => True) (fun s a _ hs => ?_)
    (Machine.along_of_forall (fun _ _ => trivial) _ _) h
  cases a with
  | start job =>
    simp only [Session.step]
    split
    · refine ⟨hs.world, ?_, hs.returned⟩
      rintro job' p hp
      obtain ⟨rfl, rfl⟩ := by simpa using hp
      exact hprogram job _ hs.world
    · exact hs
  | advance fate => exact sound_advance hs fate
  | restart how =>
    refine ⟨hreboot how _ hs.world, ?_, hs.returned⟩
    simp [Session.step]

/-! ## When everything arrives -/

/-- The result of the program when nothing is lost, and the world it leaves. -/
def arrive (serve : (a : α) → σ → β a × σ) : Client τ α β ρ → World σ τ → ρ × World σ τ
  | .done result, w => (result, w)
  | .look next, w => arrive serve (next w.own) w
  | .keep change next, w => arrive serve next { w with own := change w.own }
  | .ask a next, w => arrive serve (next (some (serve a w.service).1)) { w with service := (serve a w.service).2 }

theorem run_arrive (serve : (a : α) → σ → β a × σ) (program : κ → Client τ α β ρ) (reboot : θ → τ → τ)
    (job : κ) (p : Client τ α β ρ) (w : World σ τ) (returned : List (Return σ τ κ ρ)) :
    ∃ n, Machine.run (Session.step serve program reboot) ⟨w, some (job, p), returned⟩
        (List.replicate n (.advance .arrives)) =
      ⟨(arrive serve p w).2, none, ⟨job, (arrive serve p w).1, (arrive serve p w).2⟩ :: returned⟩ := by
  induction p generalizing w with
  | done result => exact ⟨1, rfl⟩
  | look next ih =>
    obtain ⟨n, hn⟩ := ih w.own w
    exact ⟨n + 1, hn⟩
  | keep change next ih =>
    obtain ⟨n, hn⟩ := ih { w with own := change w.own }
    exact ⟨n + 1, hn⟩
  | ask a next ih =>
    obtain ⟨n, hn⟩ := ih (some (serve a w.service).1) { w with service := (serve a w.service).2 }
    exact ⟨n + 1, hn⟩

/-- A job that is started when none is running, and of which nothing is lost,
    returns what the program says. -/
theorem run_start_arrive (serve : (a : α) → σ → β a × σ) (program : κ → Client τ α β ρ) (reboot : θ → τ → τ)
    (hidle : s.running = none) (job : κ) :
    ∃ n, Machine.run (Session.step serve program reboot) s (.start job :: List.replicate n (.advance .arrives)) =
      ⟨(arrive serve (program job) s.world).2, none, ⟨job, (arrive serve (program job) s.world).1,
        (arrive serve (program job) s.world).2⟩ :: s.returned⟩ := by
  obtain ⟨n, hn⟩ := run_arrive serve program reboot job (program job) s.world s.returned
  refine ⟨n, ?_⟩
  have hstart : (Session.step serve program reboot s (.start job)).2 =
      ⟨s.world, some (job, program job), s.returned⟩ := by
    simp [Session.step, hidle]
  rw [Machine.run_cons, hstart, hn]

end Exchange
