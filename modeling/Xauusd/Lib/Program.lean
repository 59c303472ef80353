/-
  Requests as programs over a shared store: reads, and batches that the store
  takes whole or not at all.

  `exec b s` is the store after the batch `b`, none when the store refuses it.

  * `run`: the program alone, with the log of the batches that took effect;
  * `Commits C`: alone, every batch it sends meets the condition `C`;
  * `run_invariant`: what such batches preserve, the request preserves;
  * `Flight`: several requests under way, of which one takes a step at a time;
  * `Sends P`: whatever it reads, every batch it sends has the property `P`;
  * `flight_invariant`: **what every batch preserves that meets its condition
    where it lands, any interleaving of such requests preserves**;
  * `Relies S R`: as long as the stores change within `S`, every batch the
    program sends has the property `R` of the store it lands on;
  * `flight_relies`: **if each batch changes the store within `S`, given its
    `R`, the requests of any interleaving rely on each other**;
  * `Answers S C Q`: as long as the stores change within `S`, and every batch
    meets `C` where it lands, the program replies what `Q` allows there;
  * `flight_answers`: **so do the requests of any interleaving**;
  * `serve_invariant`: the same for requests one at a time.
-/
import Xauusd.Lib.Machine

/-- A program replies, reads the store, or sends a batch and learns whether it
    took effect. -/
inductive Program (σ β ρ : Type) where
  | done (reply : ρ)
  | read (next : σ → Program σ β ρ)
  | commit (batch : β) (next : Bool → Program σ β ρ)

/-- A store and the batches that took effect, newest first. -/
structure Logged (σ β : Type) where
  state : σ
  log : List β

namespace Program

variable {σ β ρ κ : Type} {exec : β → σ → Option σ}

/-- Send a batch. -/
def land (exec : β → σ → Option σ) (b : β) (w : Logged σ β) : Option (Logged σ β) :=
  (exec b w.state).map fun s => ⟨s, b :: w.log⟩

theorem land_eq_some {b : β} {w w' : Logged σ β} (h : land exec b w = some w') :
    exec b w.state = some w'.state ∧ w'.log = b :: w.log := by
  rw [land, Option.map_eq_some_iff] at h
  obtain ⟨s, hs, rfl⟩ := h
  exact ⟨hs, rfl⟩

/-- The program alone. -/
def run (exec : β → σ → Option σ) : Program σ β ρ → Logged σ β → ρ × Logged σ β
  | done reply, w => (reply, w)
  | read next, w => (next w.state).run exec w
  | commit b next, w =>
    match land exec b w with
    | some w' => (next true).run exec w'
    | none => (next false).run exec w

@[simp] theorem run_done (reply : ρ) (w : Logged σ β) : (done reply).run exec w = (reply, w) := rfl

@[simp] theorem run_read (next : σ → Program σ β ρ) (w : Logged σ β) :
    (read next).run exec w = (next w.state).run exec w := rfl

/-- Every batch the program sends when it is alone meets `C` where it lands. -/
def Commits (exec : β → σ → Option σ) (C : Logged σ β → β → Prop) : Program σ β ρ → Logged σ β → Prop
  | done _, _ => True
  | read next, w => (next w.state).Commits exec C w
  | commit b next, w => C w b ∧
    match land exec b w with
    | some w' => (next true).Commits exec C w'
    | none => (next false).Commits exec C w

/-- Whatever it reads, the program sends only batches with the property `P`. -/
def Sends (P : β → Prop) : Program σ β ρ → Prop
  | done _ => True
  | read next => ∀ s, (next s).Sends P
  | commit b next => P b ∧ ∀ ok, (next ok).Sends P

theorem Sends.mono {P Q : β → Prop} (hPQ : ∀ b, P b → Q b) {p : Program σ β ρ} (h : p.Sends P) :
    p.Sends Q := by
  induction p with
  | done reply => trivial
  | read next ih => exact fun s => ih s (h s)
  | commit b next ih => exact ⟨hPQ b h.1, fun ok => ih ok (h.2 ok)⟩

theorem sends_trivial (p : Program σ β ρ) : p.Sends fun _ => True := by
  induction p with
  | done reply => trivial
  | read next ih => exact ih
  | commit b next ih => exact ⟨trivial, ih⟩

theorem commits_trivial (p : Program σ β ρ) (w : Logged σ β) : p.Commits exec (fun _ _ => True) w := by
  induction p generalizing w with
  | done reply => trivial
  | read next ih => exact ih w.state w
  | commit b next ih =>
    refine ⟨trivial, ?_⟩
    split
    · exact ih true _
    · exact ih false _

/-- **The rule of one request.** -/
theorem run_invariant {P : β → Prop} {C : Logged σ β → β → Prop} {I : Logged σ β → Prop}
    (hI : ∀ b w w', P b → C w b → I w → land exec b w = some w' → I w') {p : Program σ β ρ}
    {w : Logged σ β} (hP : p.Sends P) (hC : p.Commits exec C w) (h : I w) : I (p.run exec w).2 := by
  induction p generalizing w with
  | done reply => exact h
  | read next ih => exact ih w.state (hP w.state) hC h
  | commit b next ih =>
    obtain ⟨hb, hnext⟩ := hC
    cases hland : land exec b w with
    | none =>
      rw [hland] at hnext
      simpa only [run, hland] using ih false (hP.2 false) hnext h
    | some w' =>
      rw [hland] at hnext
      simpa only [run, hland] using ih true (hP.2 true) hnext (hI b w w' hP.1 hb h hland)

/-! ## Requests one at a time -/

/-- A request alone, as an action of a machine on the logged store. -/
def serve (exec : β → σ → Option σ) (program : κ → Program σ β ρ) (w : Logged σ β) (k : κ) :
    ρ × Logged σ β :=
  (program k).run exec w

theorem serve_invariant {program : κ → Program σ β ρ} {D : κ → Prop} {P : β → Prop}
    {C : Logged σ β → β → Prop} {I : Logged σ β → Prop} (hP : ∀ k, D k → (program k).Sends P)
    (hC : ∀ k w, I w → (program k).Commits exec C w)
    (hI : ∀ b w w', P b → C w b → I w → land exec b w = some w' → I w') {w : Logged σ β} (h : I w)
    {ks : List κ} (hks : ∀ k ∈ ks, D k) : I (Machine.run (serve exec program) w ks) :=
  Machine.run_invariant (C := fun _ k => D k)
    (fun w k hk hw => run_invariant hI (hP k hk) (hC k w hw) hw) (Machine.along_of_mem hks w) h

/-! ## Requests under way -/

/-- The logged store, and what is left of the requests under way. -/
structure Flight (σ β ρ : Type) where
  world : Logged σ β
  requests : List (Program σ β ρ)

inductive FlightAction (κ : Type) where
  | start (request : κ)
  | advance (i : ℕ)

/-- One step of the request at a place. -/
def Flight.advance (exec : β → σ → Option σ) (f : Flight σ β ρ) (i : ℕ) : Flight σ β ρ :=
  match f.requests[i]? with
  | some (read next) => { f with requests := f.requests.set i (next f.world.state) }
  | some (commit b next) =>
    match land exec b f.world with
    | some w => { world := w, requests := f.requests.set i (next true) }
    | none => { f with requests := f.requests.set i (next false) }
  | _ => f

def Flight.step (exec : β → σ → Option σ) (program : κ → Program σ β ρ) (f : Flight σ β ρ) :
    FlightAction κ → Unit × Flight σ β ρ
  | .start k => ((), { f with requests := f.requests ++ [program k] })
  | .advance i => ((), f.advance exec i)

/-- The batch that a request is about to send. -/
def sending (f : Flight σ β ρ) (i : ℕ) : Option β :=
  match f.requests[i]? with
  | some (commit b _) => some b
  | _ => none

theorem exists_of_sending {f : Flight σ β ρ} {i : ℕ} {b : β} (h : sending f i = some b) :
    ∃ next, f.requests[i]? = some (commit b next) := by
  unfold sending at h
  split at h
  · next b' next hget =>
    cases h
    exact ⟨next, hget⟩
  · cases h

/-- An action that sends a batch meets `C` where the batch lands. -/
def FlightAction.Meets (C : Logged σ β → β → Prop) (f : Flight σ β ρ) : FlightAction κ → Prop
  | .start _ => True
  | .advance i => ∀ b next, f.requests[i]? = some (commit b next) → C f.world b

instance {C : Logged σ β → β → Prop} [∀ w b, Decidable (C w b)] (f : Flight σ β ρ) (a : FlightAction κ) :
    Decidable (FlightAction.Meets C f a) :=
  match a with
  | .start _ => isTrue trivial
  | .advance i =>
    match h : f.requests[i]? with
    | some (commit b next) => decidable_of_iff (C f.world b)
        ⟨fun hb b' next' h' => by rw [h] at h'; cases h'; exact hb, fun hall => hall b next h⟩
    | some (read _) | some (done _) | none => isTrue fun b' next' h' => by rw [h] at h'; cases h'

/-- An action leaves the store, or a batch of a request lands. -/
theorem Flight.step_world {program : κ → Program σ β ρ} (f : Flight σ β ρ) (a : FlightAction κ) :
    (f.step exec program a).2.world = f.world ∨
      ∃ i b next, a = .advance i ∧ f.requests[i]? = some (commit b next) ∧
        land exec b f.world = some (f.step exec program a).2.world := by
  cases a with
  | start k => exact .inl rfl
  | advance i =>
    simp only [Flight.step, Flight.advance]
    split
    · exact .inl rfl
    · next b next hget =>
      split
      · next w hw => exact .inr ⟨i, b, next, rfl, hget, hw⟩
      · exact .inl rfl
    · exact .inl rfl

/-- What is left of the requests sends only batches with the property `P`. -/
def Flight.Sends (P : β → Prop) (f : Flight σ β ρ) : Prop := ∀ p ∈ f.requests, p.Sends P

theorem Flight.sends_set {P : β → Prop} {f : Flight σ β ρ} (hf : f.Sends P) (i : ℕ) {p : Program σ β ρ}
    (hp : p.Sends P) : ∀ q ∈ f.requests.set i p, q.Sends P := by
  intro q hq
  rcases List.mem_or_eq_of_mem_set hq with hq | rfl
  · exact hf q hq
  · exact hp

theorem Flight.sends_step {P : β → Prop} {program : κ → Program σ β ρ} (hP : ∀ k, (program k).Sends P)
    {f : Flight σ β ρ} (hf : f.Sends P) (a : FlightAction κ) : (f.step exec program a).2.Sends P := by
  cases a with
  | start k =>
    intro p hp
    rcases List.mem_append.1 hp with hp | hp
    · exact hf p hp
    · rw [List.mem_singleton.1 hp]
      exact hP k
  | advance i =>
    simp only [Flight.step, Flight.advance]
    split
    · next next hget => exact sends_set hf i (hf _ (List.mem_of_getElem? hget) _)
    · next b next hget =>
      have hnext := (hf _ (List.mem_of_getElem? hget)).2
      split
      · exact sends_set hf i (hnext true)
      · exact sends_set hf i (hnext false)
    · exact hf

/-- **The rule of interleaved requests.** -/
theorem flight_invariant {program : κ → Program σ β ρ} {P : β → Prop} {C : Logged σ β → β → Prop}
    {I : Logged σ β → Prop} (hP : ∀ k, (program k).Sends P)
    (hI : ∀ b w w', P b → C w b → I w → land exec b w = some w' → I w')
    {f : Flight σ β ρ} {actions : List (FlightAction κ)}
    (hactions : Machine.Along (Flight.step exec program) (FlightAction.Meets C) f actions)
    (hf : f.Sends P) (h : I f.world) :
    (Machine.run (Flight.step exec program) f actions).Sends P ∧
      I (Machine.run (Flight.step exec program) f actions).world := by
  refine Machine.run_invariant (I := fun f => f.Sends P ∧ I f.world) (fun f a ha hf => ?_) hactions ⟨hf, h⟩
  refine ⟨Flight.sends_step hP hf.1 a, ?_⟩
  rcases Flight.step_world f a with hw | ⟨i, b, next, rfl, hget, hland⟩
  · rw [hw]
    exact hf.2
  · exact hI b _ _ (hf.1 _ (List.mem_of_getElem? hget)).1 (ha b next hget) hf.2 hland

/-! ## What requests rely on -/

/-- As long as the stores change within `S`, every batch that the program sends
    has the property `R` of the store it lands on. -/
def Relies (S : Logged σ β → Logged σ β → Prop) (R : Logged σ β → β → Prop) : Program σ β ρ → Logged σ β → Prop
  | done _, _ => True
  | read next, w => ∀ w', S w w' → (next w'.state).Relies S R w'
  | commit b next, w => ∀ w', S w w' → R w' b ∧ ∀ ok, (next ok).Relies S R w'

section
variable {S : Logged σ β → Logged σ β → Prop} {R : Logged σ β → β → Prop}

theorem Relies.later (htrans : ∀ w w' w'', S w w' → S w' w'' → S w w'') {p : Program σ β ρ} {w w' : Logged σ β}
    (h : p.Relies S R w) (hw : S w w') : p.Relies S R w' := by
  cases p with
  | done reply => trivial
  | read next => exact fun w'' hw' => h w'' (htrans _ _ _ hw hw')
  | commit b next => exact fun w'' hw' => h w'' (htrans _ _ _ hw hw')

/-- What all the batches have, the program has not to rely on. -/
theorem Sends.relies {P : β → Prop} (hP : ∀ b w, P b → R w b) {p : Program σ β ρ} (h : p.Sends P)
    (w : Logged σ β) : p.Relies S R w := by
  induction p generalizing w with
  | done reply => trivial
  | read next ih => exact fun w' _ => ih w'.state (h w'.state) w'
  | commit b next ih => exact fun w' _ => ⟨hP b w' h.1, fun ok => ih ok (h.2 ok) w'⟩

/-- **The rule of requests that rely on each other.** -/
theorem flight_relies {program : κ → Program σ β ρ} {P : β → Prop} {C : Logged σ β → β → Prop}
    {I : Logged σ β → Prop} (hrefl : ∀ w, I w → S w w) (htrans : ∀ w w' w'', S w w' → S w' w'' → S w w'')
    (hP : ∀ k, (program k).Sends P) (hR : ∀ k w, I w → (program k).Relies S R w)
    (hI : ∀ b w w', P b → C w b → R w b → I w → land exec b w = some w' → I w' ∧ S w w')
    {f : Flight σ β ρ} {actions : List (FlightAction κ)}
    (hactions : Machine.Along (Flight.step exec program) (FlightAction.Meets C) f actions)
    (hf : f.Sends P) (hrelies : ∀ p ∈ f.requests, p.Relies S R f.world) (h : I f.world) :
    (Machine.run (Flight.step exec program) f actions).Sends P ∧
      (∀ p ∈ (Machine.run (Flight.step exec program) f actions).requests,
        p.Relies S R (Machine.run (Flight.step exec program) f actions).world) ∧
      I (Machine.run (Flight.step exec program) f actions).world := by
  refine Machine.run_invariant (I := fun f => f.Sends P ∧ (∀ p ∈ f.requests, p.Relies S R f.world) ∧ I f.world)
    (fun f a ha hf => ?_) hactions ⟨hf, hrelies, h⟩
  obtain ⟨hsends, hrelies, h⟩ := hf
  refine ⟨Flight.sends_step hP hsends a, ?_⟩
  have hset : ∀ {w' : Logged σ β} {i : ℕ} {p : Program σ β ρ}, S f.world w' → p.Relies S R w' →
      ∀ q ∈ f.requests.set i p, q.Relies S R w' := by
    intro w' i p hw hp q hq
    rcases List.mem_or_eq_of_mem_set hq with hq | rfl
    · exact (hrelies q hq).later htrans hw
    · exact hp
  cases a with
  | start k =>
    refine ⟨fun p hp => ?_, h⟩
    rcases List.mem_append.1 hp with hp | hp
    · exact hrelies p hp
    · rw [List.mem_singleton.1 hp]
      exact hR k _ h
  | advance i =>
    simp only [Flight.step, Flight.advance]
    split
    · next next hget =>
      exact ⟨hset (hrefl _ h) (hrelies _ (List.mem_of_getElem? hget) _ (hrefl _ h)), h⟩
    · next b next hget =>
      obtain ⟨hb, hnext⟩ := hrelies _ (List.mem_of_getElem? hget) _ (hrefl _ h)
      split
      · next w' hland =>
        obtain ⟨h', hw⟩ := hI b _ w' (hsends _ (List.mem_of_getElem? hget)).1 (ha b next hget) hb h hland
        exact ⟨hset hw ((hnext true).later htrans hw), h'⟩
      · exact ⟨hset (hrefl _ h) (hnext false), h⟩
    · exact ⟨hrelies, h⟩

/-! ## What requests answer -/

/-- As long as the stores change within `S`, and every batch meets `C` where it
    lands, the program replies what `Q` allows of the store at the reply. -/
def Answers (exec : β → σ → Option σ) (S : Logged σ β → Logged σ β → Prop) (C : Logged σ β → β → Prop)
    (Q : Logged σ β → ρ → Prop) : Program σ β ρ → Logged σ β → Prop
  | done reply, w => Q w reply
  | read next, w => ∀ w', S w w' → (next w'.state).Answers exec S C Q w'
  | commit b next, w => ∀ w', S w w' → C w' b →
    match land exec b w' with
    | some w'' => (next true).Answers exec S C Q w''
    | none => (next false).Answers exec S C Q w'

variable {C : Logged σ β → β → Prop} {Q : Logged σ β → ρ → Prop}

theorem Answers.later (htrans : ∀ w w' w'', S w w' → S w' w'' → S w w'')
    (hQ : ∀ w w' reply, S w w' → Q w reply → Q w' reply) {p : Program σ β ρ} {w w' : Logged σ β}
    (h : p.Answers exec S C Q w) (hw : S w w') : p.Answers exec S C Q w' := by
  cases p with
  | done reply => exact hQ w w' reply hw h
  | read next => exact fun w'' hw' => h w'' (htrans _ _ _ hw hw')
  | commit b next => exact fun w'' hw' => h w'' (htrans _ _ _ hw hw')

/-- **The rule of answers.** -/
theorem flight_answers {program : κ → Program σ β ρ} {P : β → Prop} {I : Logged σ β → Prop}
    (hrefl : ∀ w, I w → S w w) (htrans : ∀ w w' w'', S w w' → S w' w'' → S w w'')
    (hP : ∀ k, (program k).Sends P) (hR : ∀ k w, I w → (program k).Relies S R w)
    (hI : ∀ b w w', P b → C w b → R w b → I w → land exec b w = some w' → I w' ∧ S w w')
    (hQ : ∀ w w' reply, S w w' → Q w reply → Q w' reply)
    (hA : ∀ k w, I w → (program k).Answers exec S C Q w)
    {f : Flight σ β ρ} {actions : List (FlightAction κ)}
    (hactions : Machine.Along (Flight.step exec program) (FlightAction.Meets C) f actions)
    (hf : f.Sends P) (hrelies : ∀ p ∈ f.requests, p.Relies S R f.world) (h : I f.world)
    (hanswers : ∀ p ∈ f.requests, p.Answers exec S C Q f.world) :
    ∀ p ∈ (Machine.run (Flight.step exec program) f actions).requests,
      p.Answers exec S C Q (Machine.run (Flight.step exec program) f actions).world := by
  refine (Machine.run_invariant (I := fun f => (f.Sends P ∧ (∀ p ∈ f.requests, p.Relies S R f.world) ∧ I f.world) ∧
    ∀ p ∈ f.requests, p.Answers exec S C Q f.world) (fun f a ha hf => ?_) hactions
    ⟨⟨hf, hrelies, h⟩, hanswers⟩).2
  obtain ⟨⟨hsends, hrelies, h⟩, hanswers⟩ := hf
  have hone : Machine.Along (Flight.step exec program) (FlightAction.Meets C) f [a] := ⟨ha, trivial⟩
  refine ⟨flight_relies hrefl htrans hP hR hI hone hsends hrelies h, ?_⟩
  have hset : ∀ {w' : Logged σ β} {i : ℕ} {p : Program σ β ρ}, S f.world w' → p.Answers exec S C Q w' →
      ∀ q ∈ f.requests.set i p, q.Answers exec S C Q w' := by
    intro w' i p hw hp q hq
    rcases List.mem_or_eq_of_mem_set hq with hq | rfl
    · exact (hanswers q hq).later htrans hQ hw
    · exact hp
  cases a with
  | start k =>
    intro p hp
    rcases List.mem_append.1 hp with hp | hp
    · exact hanswers p hp
    · rw [List.mem_singleton.1 hp]
      exact hA k _ h
  | advance i =>
    simp only [Flight.step, Flight.advance]
    split
    · next next hget => exact hset (hrefl _ h) (hanswers _ (List.mem_of_getElem? hget) _ (hrefl _ h))
    · next b next hget =>
      have hnext := hanswers _ (List.mem_of_getElem? hget) _ (hrefl _ h) (ha b next hget)
      have hb := (hrelies _ (List.mem_of_getElem? hget) _ (hrefl _ h)).1
      split at hnext
      · next w' hland =>
        obtain ⟨-, hw⟩ := hI b _ w' (hsends _ (List.mem_of_getElem? hget)).1 (ha b next hget) hb h hland
        exact hset hw hnext
      · exact hset (hrefl _ h) hnext
    · exact hanswers

end

end Program
