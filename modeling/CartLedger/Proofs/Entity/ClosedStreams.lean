import CartLedger.Proofs.Cart.Histories
import CartLedger.Proofs.Entity.Batches
import CartLedger.Proofs.Entity.Moves
import CartLedger.Proofs.Entity.SplitBrain

/-! Streams that end in a checkout.

A cart that was checked out refuses whatever would change it, so nothing comes behind a
checkout: every history of a run is legal (`Untouched.legal`), and a stream that is closed
stays as it is whatever is sent to whom (`Consistent.move_closed`). An instance that is at
the end of a closed stream answers every message from there (`receive_checkedOut`), in the
middle of a batch as well (`receive_behind`). -/
namespace CartLedger.Cart
open CartLedger.Time (Timestamp)

/-! ### Carts that were checked out -/

/-- What a cart that was checked out says to a command. -/
def closingReply (s : Summary) : Command → Reply
  | .addItem .. => .rejected Rejection.addToCheckedOut.message
  | .removeItem .. => .rejected Rejection.removeFromCheckedOut.message
  | .adjustItemQuantity .. => .rejected Rejection.adjustCheckedOut.message
  | .get => .summary s
  | .checkout => .rejected Rejection.checkoutCheckedOut.message

theorem reply?_of_isCheckedOut {c : Cart} (h : c.isCheckedOut = true) (id : String) (now : Timestamp)
    (command : Command) : (c.decide id now command).reply? = some (closingReply c.summary command) := by
  cases command <;>
    simp [decide, decideAdd, decideRemove, decideAdjust, decideCheckout, h, Effect.reply?, closingReply]

theorem replay_checkedOut (past : List Event) (cart : String) (time : Timestamp) :
    replay .empty (past ++ [.checkedOut cart time]) = ⟨(replay .empty past).items, some time⟩ := by
  rw [replay_concat]
  rfl

/-- Events that were each decided on those before are a legal history. -/
theorem legal_of_decided {id : String} {events : List Event}
    (h : ∀ {i event}, events[i]? = some event →
      ∃ now command, (replay .empty (events.take i)).decide id now command = .persist event) :
    Legal id events := by
  have hsplit : ∀ {past e rest}, events = past ++ e :: rest → ¬ Closed past ∧ Due id past e := by
    intro past e rest heq
    have hat : events[past.length]? = some e := by simp [heq]
    obtain ⟨now, command, hdecide⟩ := h hat
    rw [heq, List.take_left' rfl] at hdecide
    exact due_of_decide hdecide
  refine ⟨fun heq => (hsplit heq).2, fun {past cart time rest} heq => ?_⟩
  cases rest with
  | nil => rfl
  | cons next rest =>
    -- What comes next would have a closed past.
    have hpast : events = (past ++ [.checkedOut cart time]) ++ next :: rest := by simp [heq]
    exact absurd ⟨cart, time, List.mem_append_right _ (List.mem_singleton_self _)⟩ (hsplit hpast).1

theorem concat_checkedOut_inj {past past' : List Event} {cart : String} {time time' : Timestamp}
    (h : past ++ [.checkedOut cart time] = past' ++ [.checkedOut cart time']) : past = past' ∧ time = time' := by
  obtain ⟨hpast, hlast⟩ := List.append_inj' h rfl
  obtain ⟨-, htime⟩ := Event.checkedOut.inj (List.singleton_inj.1 hlast)
  exact ⟨hpast, htime⟩

/-- A legal history that is closed ends with the checkout. -/
theorem Legal.ends {id : String} {events : List Event} (h : Legal id events) (hclosed : Closed events) :
    ∃ past time, events = past ++ [.checkedOut id time] := by
  obtain ⟨cart, time, hmem⟩ := hclosed
  obtain ⟨past, rest, heq⟩ := List.append_of_mem hmem
  obtain rfl := h.checkout_last heq
  obtain ⟨hcart, -⟩ := h.due heq
  exact ⟨past, time, hcart ▸ heq⟩

end CartLedger.Cart

namespace CartLedger.Entity
open CartLedger.Cart (Command Event Closed Legal closingReply)
open CartLedger.Storage (Backend View Correct)
open CartLedger.Time (Timestamp)
open Instance (Message Answer Surroundings)

variable {σ : Type} {B : Backend σ} {V : View σ} {w w' : World σ} {s : σ} {i : Instance}

/-! ### Streams -/

/-- **Every history is legal.** -/
theorem Untouched.legal (C : Correct B V) (h : Untouched B V w) (steps : List Step)
    (hfits : ∀ n ≤ (w.run B steps).2.issued, V.Fits n) (id : String) :
    Legal id (history ((w.run B steps).2.records B (.ofCart id))) := by
  refine Cart.legal_of_decided fun hi => ?_
  obtain ⟨before, step, after, messages, command, context, -, -, -, hdecide⟩ := h.decided C steps hfits id hi
  exact ⟨_, command, hdecide⟩

/-- Behind a checkout nothing is recorded. -/
theorem Told.closed {id : String} {clock : Timestamp} {rs rs' : List Record} {messages : List Message}
    {answers : List Answer} (h : Told id clock rs messages answers rs') (hclosed : Closed (history rs)) :
    rs' = rs := by
  induction h with
  | nil => rfl
  | cons hfirst _ ih =>
    cases hfirst with
    | recorded hdecide =>
      rw [cartAt_length] at hdecide
      exact absurd hclosed (Cart.due_of_decide hdecide).1
    | _ => exact ih hclosed

/-- **A closed stream stays as it is**, whatever is done. -/
theorem Consistent.move_closed (C : Correct B V) (h : Consistent B V w) (hmove : Move B w w')
    (hfits : ∀ n ≤ w'.issued, V.Fits n) {id : String} (hclosed : Closed (history (w.records B (.ofCart id)))) :
    w'.records B (.ofCart id) = w.records B (.ofCart id) := by
  cases hmove with
  | openJournal => exact congrFun (C.openJournal h.healthy.inv).recorded _
  | setFailing failing => exact congrFun (C.setFailing h.healthy.inv failing).2.1 _
  | send n messages =>
    cases hn : w.instances[n]? with
    | none => simp only [World.send, hn]
    | some inst =>
      have hid : w.ids[n]? = some inst.id := by rw [World.ids, List.getElem?_map, hn]; rfl
      have hdelivered := h.send C hid messages hfits
      by_cases he : inst.id = id
      · subst he
        exact hdelivered.told.closed hclosed
      · exact hdelivered.others _ fun hsame => he (congrArg StreamId.entityId hsame).symm
  | stop n =>
    obtain ⟨instances, hstop, -⟩ := w.stop_eq n
    rw [hstop]
  | _ => rfl

/-- Only streams that are taken have records. -/
theorem Healthy.takes (C : Correct B V) (h : Healthy B V s) {id : StreamId} (hne : B.recorded s id ≠ []) :
    V.Takes id := by
  by_contra hforeign
  obtain ⟨e, he⟩ := C.foreign h.inv hforeign 0
  rw [Backend.recorded, he] at hne
  exact hne rfl

/-! ### Instances -/

/-- The checkout is the last event, so an instance that applied it is at the end. -/
theorem Follows.at_checkout (h : Follows B V s i) (hs : Healthy B V s)
    (hlegal : Legal i.id (history (B.recorded s i.stream))) (hout : i.cart.isCheckedOut = true) :
    i.sequenceNr = (B.recorded s i.stream).length ∧ ∃ past time,
      history (B.recorded s i.stream) = past ++ [.checkedOut i.id time] ∧
        i.cart = ⟨(Cart.replay .empty past).items, some time⟩ := by
  rw [h.cart, cartAt, Cart.isCheckedOut_replay] at hout
  obtain ⟨cart, time, hmem⟩ := hout
  obtain ⟨past, rest, heq⟩ := List.append_of_mem hmem
  have hsplit : history (B.recorded s i.stream) = past ++ .checkedOut cart time ::
      (rest ++ history ((B.recorded s i.stream).drop i.sequenceNr)) := by
    rw [← List.cons_append, ← List.append_assoc, ← heq, ← history_append, List.take_append_drop]
  obtain ⟨rfl, hnone⟩ := List.append_eq_nil_iff.1 (hlegal.checkout_last hsplit)
  obtain ⟨rfl, -⟩ := hlegal.due hsplit
  rw [hnone] at hsplit
  have hlegible : Legible ((B.recorded s i.stream).drop i.sequenceNr) :=
    fun r hr => hs.legible _ r (List.mem_of_mem_drop hr)
  have hend : i.sequenceNr = (B.recorded s i.stream).length := by
    have hlength := hlegible.length_history
    rw [hnone, List.length_nil, List.length_drop] at hlength
    have := h.le
    omega
  refine ⟨hend, past, time, hsplit, ?_⟩
  rw [h.cart_of_current hend, cartAt_length, hsplit]
  exact Cart.replay_checkedOut past _ time

/-- An instance at the end of a closed stream applied the checkout. -/
theorem Follows.isCheckedOut (h : Follows B V s i) (hcurrent : Current B s i)
    (hclosed : Closed (history (B.recorded s i.stream))) : i.cart.isCheckedOut = true := by
  rw [h.cart_of_current hcurrent, cartAt_length, Cart.isCheckedOut_replay]
  exact hclosed

namespace Instance

/-- What an instance at a checkout answers. -/
def finalAnswer (c : Cart) (sequenceNr : Nat) : Message → Answer
  | .ask command _ => .reply (.ok (closingReply c.summary command))
  | .observe => .state (.ok (c, sequenceNr))
  | .passivate => .done

theorem answer_checkedOut (h : i.cart.isCheckedOut = true) (env : Surroundings) (message : Message) :
    answer B env i s message = (finalAnswer i.cart i.sequenceNr message, i, s) := by
  cases message with
  | ask command context =>
    have hask := ask_replied (B := B) (s := s) (Cart.reply?_of_isCheckedOut h i.id env.clock command) context
    simp only [answer, hask]
    rfl
  | observe => rfl
  | passivate => rfl

/-- An instance at a checkout stays there. -/
theorem serve_checkedOut (h : i.cart.isCheckedOut = true) (hrunning : i.running = true) (env : Surroundings)
    (messages : List Message) :
    serve B env i s messages = (messages.map (finalAnswer i.cart i.sequenceNr), i, s) := by
  induction messages generalizing env with
  | nil => rfl
  | cons message rest ih =>
    simp only [serve, hrunning, if_true, answer_checkedOut h, ih]
    rfl

/-- It does so already to what waits behind the message with which it came to be there. -/
theorem receive_behind {now : Nat} {messages : List Message} {env : Surroundings} (hrunning : i.running = true)
    {answers : List Answer} {i' : Instance} {s' : σ}
    (hserve : serve B env { i with lastHeard := now } s messages = (answers, i', s')) (hserved : i'.running = true)
    (hout : i'.cart.isCheckedOut = true) (more : List Message) :
    ∃ i'', receive B env now i (messages ++ more) s =
        (answers ++ more.map (finalAnswer i'.cart i'.sequenceNr), i'', s') ∧
      i''.sequenceNr = i'.sequenceNr ∧ i''.running = !(messages ++ more).any Message.isPassivate := by
  by_cases hnone : messages ++ more = []
  · obtain ⟨rfl, rfl⟩ := List.append_eq_nil_iff.1 hnone
    obtain ⟨rfl, rfl, rfl⟩ : answers = [] ∧ i' = { i with lastHeard := now } ∧ s' = s := by
      simpa [serve, eq_comm] using hserve
    exact ⟨i, receive_nil, rfl, hrunning⟩
  · refine ⟨{ i' with running := !(messages ++ more).any Message.isPassivate }, ?_, rfl, rfl⟩
    rw [receive, if_pos ⟨hrunning, hnone⟩, serve_append, hserve]
    dsimp only
    rw [serve_checkedOut hout hserved]
    simp only [hserved, Bool.true_and]

/-- **An instance at a checkout answers for good.** -/
theorem receive_checkedOut (h : i.cart.isCheckedOut = true) (hrunning : i.running = true) (env : Surroundings)
    (now : Nat) (messages : List Message) :
    ∃ i', receive B env now i messages s = (messages.map (finalAnswer i.cart i.sequenceNr), i', s) ∧
      i'.sequenceNr = i.sequenceNr := by
  have hserve : serve B env { i with lastHeard := now } s [] = ([], { i with lastHeard := now }, s) := rfl
  obtain ⟨i', hreceive, hnumber, -⟩ := receive_behind hrunning hserve hrunning h messages
  exact ⟨i', hreceive, hnumber⟩

/-- How a command is answered that has this reply, or none. -/
def Answer.of : Option Cart.Reply → Answer
  | some r => .reply (.ok r)
  | none => .reply (.error .noReply)

/-- A single command, and what becomes of the instance. -/
theorem receive_ask {now : Nat} {env : Surroundings} {command : Command} {context : Context}
    (hrunning : i.running = true) {reply : Option Cart.Reply} {i' : Instance} {s' : σ}
    (hask : ask B env { i with lastHeard := now } command context s = (reply, i', s')) :
    receive B env now i [.ask command context] s = ([Answer.of reply], i', s') := by
  have hserve : serve B env { i with lastHeard := now } s [.ask command context] = ([Answer.of reply], i', s') := by
    rw [serve, if_pos hrunning, answer, hask]
    cases reply <;> rfl
  rw [receive, if_pos ⟨hrunning, List.cons_ne_nil _ _⟩, hserve]
  simp [Message.isPassivate]

end Instance

end CartLedger.Entity
