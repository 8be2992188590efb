import CartLedger.Proofs.Entity.Lifetimes

/-! Batches and mailboxes.

Messages that come together are handled as the mailbox takes them. As long as the instance
runs, nobody can tell: what is sent in parts is answered as if it had come at once
(`send_append`), so a batch that nothing stops is answered as if the mailbox had room for all
of it (`sendAll_of_running`). Whatever the batch, it is as many steps as it fills the mailbox
(`act_send_append`). -/
namespace CartLedger.Entity
open CartLedger.Storage (Backend)
open Instance (Message Answer Surroundings)

variable {σ : Type} {B : Backend σ} {w w' : World σ}

/-! ### Messages in two parts -/

namespace Instance
variable {i i₁ : Instance} {s s₁ : σ} {env : Surroundings} {now : Nat}

/-- Messages that wait behind others are answered by the instance that those leave. -/
theorem serve_append (messages more : List Message) (env : Surroundings) (i : Instance) (s : σ) :
    serve B env i s (messages ++ more) =
      let (answers, i, s) := serve B env i s messages
      let (rest, i, s) := serve B { env with issued := env.issued + messages.length } i s more
      (answers ++ rest, i, s) := by
  induction messages generalizing env i s with
  | nil => rfl
  | cons message messages ih =>
    by_cases hrunning : i.running = true
    · have hissued : env.issued + 1 + messages.length = env.issued + (message :: messages).length := by
        rw [List.length_cons]
        omega
      simp only [List.cons_append, serve, hrunning, if_true, ih, hissued]
    · cases more with
      | nil => simp [serve, hrunning]
      | cons first more => simp [serve, hrunning]

/-- An instance that has stopped does nothing any more. -/
theorem serve_stopped (hstopped : i.running = false) (env : Surroundings) (messages : List Message) :
    (serve B env i s messages).2 = (i, s) := by
  cases messages with
  | nil => rfl
  | cons message rest =>
    rw [serve, if_neg]
    rw [hstopped]
    exact Bool.false_ne_true

/-- An instance that runs after all of the messages ran after the first of them. -/
theorem running_of_serve_append {messages more : List Message}
    (h : (serve B env i s (messages ++ more)).2.1.running = true) :
    (serve B env i s messages).2.1.running = true := by
  rw [serve_append] at h
  cases hrun : (serve B env i s messages).2.1.running with
  | true => rfl
  | false =>
    have hrest := serve_stopped (B := B) (s := (serve B env i s messages).2.2) hrun
      { env with issued := env.issued + messages.length } more
    rw [← hrun, ← h]
    exact (congrArg (fun left => left.1.running) hrest).symm

theorem receive_nil : receive B env now i [] s = ([], i, s) := if_neg fun hheard => hheard.2 rfl

/-- Messages that are received together are served, and nobody asks the instance to stop. -/
theorem receive_staying (hrunning : i.running = true) {messages : List Message} (hsome : messages ≠ [])
    (hstays : messages.any Message.isPassivate = false) :
    receive B env now i messages s = serve B env { i with lastHeard := now } s messages := by
  simp only [receive, if_pos (And.intro hrunning hsome), hstays, Bool.not_false, Bool.and_true]

/-- What an instance receives in two parts, running on in between, it answers as if it had
received it at once. -/
theorem receive_append {filling : List Message} {answers : List Answer} (hrunning : i.running = true)
    (hstays : filling.any Message.isPassivate = false)
    (hfilling : receive B env now i filling s = (answers, i₁, s₁)) (hruns : i₁.running = true) (rest : List Message) :
    receive B env now i (filling ++ rest) s =
      let (more, i₂, s₂) := receive B { env with issued := env.issued + filling.length } now i₁ rest s₁
      (answers ++ more, i₂, s₂) := by
  by_cases hsome : filling = []
  · subst hsome
    rw [receive_nil] at hfilling
    obtain ⟨rfl, rfl, rfl⟩ : answers = [] ∧ i₁ = i ∧ s₁ = s := by simpa [eq_comm] using hfilling
    rfl
  by_cases hmore : rest = []
  · subst hmore
    simp only [receive_nil, List.append_nil, hfilling]
  -- The instance that received the first part was heard of now.
  obtain ⟨answers', i', s', hserve, hheard, -⟩ :=
    serve_outcome (B := B) (i := { i with lastHeard := now }) (s := s) filling hrunning env
  rw [receive_staying hrunning hsome hstays, hserve] at hfilling
  obtain ⟨rfl, rfl, rfl⟩ : answers = answers' ∧ i₁ = i' ∧ s₁ = s' := by simpa [eq_comm] using hfilling
  have hnow : i₁.lastHeard = now := hheard
  have hsame : { i₁ with lastHeard := now } = i₁ := by rw [← hnow]
  rw [receive, if_pos ⟨hrunning, fun hnone => hsome (List.append_eq_nil_iff.1 hnone).1⟩, serve_append, hserve]
  simp only [receive, if_pos (And.intro hruns hmore), hsame, List.any_append, hstays, Bool.false_or]

end Instance

/-! ### Batches -/

theorem World.send_nil {i : Nat} {inst : Instance} (hi : w.instances[i]? = some inst) : w.send B i [] = ([], w) := by
  obtain ⟨hlt, rfl⟩ := List.getElem?_eq_some_iff.1 hi
  simp only [World.send, hi, Instance.receive_nil, List.length_nil, Nat.add_zero, List.set_getElem_self]

/-- Messages that all find a slot are sent at once. -/
theorem World.sendAll_of_le {i : Nat} {inst : Instance} (hi : w.instances[i]? = some inst)
    {messages : List Message} (hfits : messages.length ≤ inst.settings.slots) :
    w.sendAll B i messages = w.send B i messages := by
  have hpos := inst.settings.slots_pos
  cases messages with
  | nil =>
    have hnone : inst.settings.fillings 0 = 0 := by
      rw [Settings.fillings, Nat.div_eq_of_lt (by omega)]
    rw [World.sendAll_eq hi, List.length_nil, hnone, World.send_nil hi, World.sendInTurns]
  | cons message rest =>
    have hone : inst.settings.fillings (message :: rest).length = 1 := by
      rw [Settings.fillings, Nat.div_eq_iff hpos]
      rw [List.length_cons] at hfits ⊢
      omega
    rw [World.sendAll_eq hi, hone]
    simp only [World.sendInTurns, List.take_of_length_le hfits, List.append_nil]

theorem World.isRunning_send {i : Nat} {inst : Instance} (hi : w.instances[i]? = some inst)
    (messages : List Message) : (w.send B i messages).2.isRunning i =
      (Instance.receive B ⟨w.clock, w.issued⟩ w.elapsed inst messages w.storage).2.1.running := by
  have hlt := (List.getElem?_eq_some_iff.1 hi).1
  simp only [World.send, hi, World.isRunning, List.getElem?_set_self hlt]

section
variable {i : Nat} {inst : Instance} (hi : w.instances[i]? = some inst) (hrunning : inst.running = true)
include hi hrunning

theorem World.send_append {filling rest : List Message} (hstays : filling.any Message.isPassivate = false)
    (hruns : (w.send B i filling).2.isRunning i = true) :
    w.send B i (filling ++ rest) =
      ((w.send B i filling).1 ++ ((w.send B i filling).2.send B i rest).1,
        ((w.send B i filling).2.send B i rest).2) := by
  have hlt := (List.getElem?_eq_some_iff.1 hi).1
  rw [World.isRunning_send hi] at hruns
  rcases hfilling : Instance.receive B ⟨w.clock, w.issued⟩ w.elapsed inst filling w.storage with ⟨answers, inst', s'⟩
  rw [hfilling] at hruns
  have happend := Instance.receive_append hrunning hstays hfilling hruns rest
  simp only [World.send, hi, hfilling, happend, List.getElem?_set_self hlt, List.set_set, List.length_append,
    Nat.add_assoc]

theorem World.isRunning_of_send_append {filling rest : List Message}
    (hstays : (filling ++ rest).any Message.isPassivate = false)
    (hruns : (w.send B i (filling ++ rest)).2.isRunning i = true) : (w.send B i filling).2.isRunning i = true := by
  rw [World.isRunning_send hi] at hruns ⊢
  by_cases hsome : filling = []
  · subst hsome
    rw [Instance.receive_nil]
    exact hrunning
  · have hall : filling ++ rest ≠ [] := fun hnone => hsome (List.append_eq_nil_iff.1 hnone).1
    rw [Instance.receive_staying hrunning hall hstays] at hruns
    rw [List.any_append] at hstays
    rw [Instance.receive_staying hrunning hsome (Bool.or_eq_false_iff.1 hstays).1]
    exact Instance.running_of_serve_append hruns

/-- In however many turns: if the instance runs on, it answers as if they had been one. -/
theorem InTurns.at_once {messages : List Message} {answers : List Answer} (h : InTurns B i w messages answers w')
    (hstays : messages.any Message.isPassivate = false) (hruns : (w.send B i messages).2.isRunning i = true) :
    w.send B i messages = (answers, w') := by
  induction h generalizing inst with
  | nil => exact World.send_nil hi
  | @cons w w' filling rest answers _ ih =>
    have hfirst := World.isRunning_of_send_append hi hrunning hstays hruns
    rw [List.any_append] at hstays
    obtain ⟨hstays, hstays'⟩ := Bool.or_eq_false_iff.1 hstays
    rw [World.send_append hi hrunning hstays hfirst] at hruns ⊢
    obtain ⟨inst', hi', hrunning'⟩ : ∃ inst', (w.send B i filling).2.instances[i]? = some inst' ∧
        inst'.running = true := by
      unfold World.isRunning at hfirst
      split at hfirst
      · next inst' hi' => exact ⟨inst', hi', hfirst⟩
      · cases hfirst
    rw [ih hi' hrunning' hstays' hruns]

/-- **A batch that stops nobody is answered as if the mailbox had room for all of it.** -/
theorem World.sendAll_of_running {messages : List Message} (hstays : messages.any Message.isPassivate = false)
    (hruns : (w.send B i messages).2.isRunning i = true) : w.sendAll B i messages = w.send B i messages :=
  ((World.inTurns_sendAll hi messages).at_once hi hrunning hstays hruns).symm

/-- Messages that the mailbox takes together, or that stop nobody. -/
theorem World.act_send {name : String} (hname : w.named? name = some i) {messages : List Message}
    (htogether : messages.length ≤ inst.settings.slots ∨
      messages.any Message.isPassivate = false ∧ (w.send B i messages).2.isRunning i = true) :
    w.act B (.send name messages) = w.send B i messages := by
  rw [World.act, hname]
  rcases htogether with hfits | ⟨hstays, hruns⟩
  · exact World.sendAll_of_le hi hfits
  · exact World.sendAll_of_running hi hrunning hstays hruns

end

/-! ### Fillings are steps -/

theorem World.act_send_eq {name : String} {i : Nat} {inst : Instance} (hname : w.named? name = some i)
    (hi : w.instances[i]? = some inst) (messages : List Message) : w.act B (.send name messages) =
      w.sendInTurns B i inst.settings.slots (inst.settings.fillings messages.length) messages := by
  rw [World.act, hname]
  exact World.sendAll_eq hi messages

theorem World.sendInTurns_append (i slots : Nat) {turns turns' : Nat} {sent rest : List Message}
    (hfull : sent.length = turns * slots) :
    w.sendInTurns B i slots (turns + turns') (sent ++ rest) =
      ((w.sendInTurns B i slots turns sent).1 ++
          ((w.sendInTurns B i slots turns sent).2.sendInTurns B i slots turns' rest).1,
        ((w.sendInTurns B i slots turns sent).2.sendInTurns B i slots turns' rest).2) := by
  induction turns generalizing w sent with
  | zero =>
    obtain rfl : sent = [] := List.eq_nil_of_length_eq_zero (by omega)
    simp only [Nat.zero_add, List.nil_append, World.sendInTurns]
  | succ turns ih =>
    rw [Nat.succ_mul] at hfull
    have hle : slots ≤ sent.length := by omega
    have hrest : (sent.drop slots).length = turns * slots := by
      rw [List.length_drop]
      omega
    rw [Nat.succ_add]
    simp only [World.sendInTurns, List.take_append_of_le_length hle, List.drop_append_of_le_length hle, ih hrest,
      List.append_assoc]

theorem Settings.fillings_add (settings : Settings) (full messages : Nat) :
    settings.fillings (full * settings.slots + messages) = full + settings.fillings messages := by
  have hpos := settings.slots_pos
  have hsum : full * settings.slots + messages + settings.slots - 1 =
      messages + settings.slots - 1 + full * settings.slots := by omega
  rw [Settings.fillings, Settings.fillings, hsum, Nat.add_mul_div_right _ _ hpos, Nat.add_comm]

/-- What is sent leaves names as they are, and instances with their settings. -/
theorem InTurns.same {i : Nat} {messages : List Message} {answers : List Answer}
    (h : InTurns B i w messages answers w') {inst : Instance} (hi : w.instances[i]? = some inst) :
    w'.kept = w.kept ∧ ∃ inst', w'.instances[i]? = some inst' ∧ Same inst inst' := by
  induction h generalizing inst with
  | nil => exact ⟨rfl, inst, hi, .refl inst⟩
  | @cons w w' filling rest answers _ ih =>
    have hlt := (List.getElem?_eq_some_iff.1 hi).1
    simp only [World.send, hi] at ih
    obtain ⟨hkept, inst', hinst', hsame⟩ := ih (List.getElem?_set_self hlt)
    exact ⟨hkept, inst', hinst', (same_receive _ _ filling).trans hsame⟩

/-- **A batch is as many steps as it fills the mailbox.** After messages that fill it so many
times exactly, the others might as well be sent in a step of their own. -/
theorem World.act_send_append {name : String} {i : Nat} {inst : Instance} (hname : w.named? name = some i)
    (hi : w.instances[i]? = some inst) {sent : List Message} (hfull : inst.settings.slots ∣ sent.length)
    (rest : List Message) :
    w.act B (.send name (sent ++ rest)) =
      ((w.act B (.send name sent)).1 ++ ((w.act B (.send name sent)).2.act B (.send name rest)).1,
        ((w.act B (.send name sent)).2.act B (.send name rest)).2) := by
  obtain ⟨full, hlength⟩ := hfull
  rw [Nat.mul_comm] at hlength
  have hsent : inst.settings.fillings sent.length = full := by
    have hadd := inst.settings.fillings_add full 0
    rw [Nat.add_zero, ← hlength] at hadd
    rw [hadd, Settings.fillings, Nat.div_eq_of_lt (by have := inst.settings.slots_pos; omega), Nat.add_zero]
  have hall : inst.settings.fillings (sent ++ rest).length = full + inst.settings.fillings rest.length := by
    rw [List.length_append, hlength, inst.settings.fillings_add]
  -- The instance is found under the name again, and its mailbox is the same.
  have hturns := World.inTurns_sendAll (B := B) hi sent
  rw [World.act_send_eq hname hi (sent ++ rest), hall, World.act_send_eq hname hi sent, hsent]
  rw [World.sendAll_eq hi, hsent] at hturns
  obtain ⟨hkept, inst', hi', hsame⟩ := hturns.same hi
  have hname' : (w.sendInTurns B i inst.settings.slots full sent).2.named? name = some i := by
    rw [World.named?, hkept]
    exact hname
  rw [World.act_send_eq hname' hi', hsame.settings]
  exact World.sendInTurns_append i _ hlength

end CartLedger.Entity
