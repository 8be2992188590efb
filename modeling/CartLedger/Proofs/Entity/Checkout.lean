import CartLedger.Proofs.Entity.ClosedStreams

/-! Checkout is final for everybody.

Once a checkout is in the stream of a cart, the stream stays as it is. An instance that
applied the checkout stays at the end of the stream as long as it runs, and one that is
started later gets there by recovery (`Settled.move`), so all of them, and the stores that
hand them out, answer the same for good. The others are behind: they may answer from where
they are, but what they try to record is refused, and that stops them. -/
namespace CartLedger.Entity
open CartLedger.Cart (Command Event Closed Legal)
open CartLedger.Storage (Backend View Correct Memory Files memory files memoryView filesView)
open CartLedger.Time (Timestamp)
open Instance (Message Answer Surroundings finalAnswer)

variable {σ : Type} {B : Backend σ} {V : View σ} {w w' : World σ} {id : String} {rs : List Record} {n : Nat}

/-! ### Instances at the end of a stream -/

/-- The instance with the number `n`, if it is one of the cart, is at the end of its stream as
long as it runs. -/
structure Settled (B : Backend σ) (id : String) (rs : List Record) (n : Nat) (w : World σ) : Prop where
  records : w.records B (.ofCart id) = rs
  sequenceNr : ∀ {inst}, w.instances[n]? = some inst → inst.running = true → inst.id = id →
    inst.sequenceNr = rs.length

/-- A message to an instance at the end leaves it there. -/
theorem Settled.send (hw : Consistent B V w) (hclosed : Closed (history rs)) (h : Settled B id rs n w) (i : Nat)
    (messages : List Message) {inst' : Instance} (hget : (w.send B i messages).2.instances[n]? = some inst')
    (hrunning' : inst'.running = true) (hid : inst'.id = id) : inst'.sequenceNr = rs.length := by
  cases hi : w.instances[i]? with
  | none =>
    simp only [World.send, hi] at hget
    exact h.sequenceNr hget hrunning' hid
  | some inst =>
    simp only [World.send, hi] at hget
    by_cases hn : i = n
    · subst hn
      obtain ⟨hlt, -⟩ := List.getElem?_eq_some_iff.1 hi
      rw [List.getElem?_set_self hlt] at hget
      obtain rfl := Option.some.inj hget
      have hsame := same_receive (B := B) (i := inst) (s := w.storage) ⟨w.clock, w.issued⟩ w.elapsed messages
      have hid' : inst.id = id := hsame.id.symm.trans hid
      by_cases hrunning : inst.running = true
      · have hend := h.sequenceNr hi hrunning hid'
        have hf := hw.follows inst (List.mem_of_getElem? hi) hrunning
        have hrecords : B.recorded w.storage inst.stream = rs := by
          rw [Instance.stream, hid']
          exact h.records
        have hout := hf.isCheckedOut (by rw [Current, hrecords, hend]) (hrecords ▸ hclosed)
        obtain ⟨inst', hreceive, hnumber⟩ := Instance.receive_checkedOut (B := B) (s := w.storage) hout hrunning
          ⟨w.clock, w.issued⟩ w.elapsed messages
        rw [hreceive]
        exact hnumber.trans hend
      · rw [Instance.receive, if_neg fun hheard => hrunning hheard.1] at hrunning'
        exact absurd hrunning' hrunning
    · rw [List.getElem?_set_ne hn] at hget
      exact h.sequenceNr hget hrunning' hid

/-- An instance that is started gets to the end by recovery, and takes nobody else's number. -/
theorem Settled.start (C : Correct B V) (hw : Consistent B V w) (h : Settled B id rs n w) (id' : String) (journal : Nat)
    (settings : Settings) {inst' : Instance}
    (hget : (w.start B id' journal settings).2.instances[n]? = some inst') (hrunning : inst'.running = true)
    (hid : inst'.id = id) : inst'.sequenceNr = rs.length := by
  have hget : (w.instances ++ [Instance.start B id' journal settings w.elapsed w.storage])[n]? = some inst' := hget
  by_cases hn : n < w.instances.length
  · rw [List.getElem?_append_left hn] at hget
    exact h.sequenceNr hget hrunning hid
  · -- The instance is the new one.
    rw [List.getElem?_append_right (Nat.le_of_not_lt hn)] at hget
    obtain rfl := List.mem_singleton.1 (List.mem_of_getElem? hget)
    rw [id_start] at hid
    subst hid
    by_cases htakes : V.Takes (.ofCart id')
    · rw [start_eq C hw.healthy htakes]
      exact congrArg List.length h.records
    · rw [start_foreign C hw.healthy htakes] at hrunning
      cases hrunning

/-- **One move**: nothing is recorded, and who is at the end stays there or gets there. -/
theorem Settled.move (C : Correct B V) (hw : Consistent B V w) (hmove : Move B w w')
    (hfits : ∀ k ≤ w'.issued, V.Fits k) (hclosed : Closed (history rs)) (h : Settled B id rs n w) :
    Settled B id rs n w' := by
  have hrecords : w'.records B (.ofCart id) = rs :=
    (hw.move_closed C hmove hfits (h.records ▸ hclosed)).trans h.records
  refine ⟨hrecords, fun {inst'} hget hrunning hid => ?_⟩
  cases hmove with
  | start _ id' journal => exact h.start C hw id' journal _ hget hrunning hid
  | send i messages => exact h.send hw hclosed i messages hget hrunning hid
  | stop i =>
    rw [World.stop] at hget
    split at hget
    · exact h.sequenceNr hget hrunning hid
    · next inst hi =>
      rw [List.getElem?_set] at hget
      split at hget
      · split at hget
        · obtain rfl := Option.some.inj hget
          cases hrunning
        · cases hget
      · exact h.sequenceNr hget hrunning hid
  | sleep ms =>
    have hget : (w.instances.map (Instance.expire (w.elapsed + ms)))[n]? = some inst' := hget
    rw [List.getElem?_map] at hget
    obtain ⟨inst, hinst, rfl⟩ := Option.map_eq_some_iff.1 hget
    rw [Instance.expire] at hrunning hid ⊢
    split at hrunning
    · cases hrunning
    · next hidle =>
      rw [if_neg hidle] at hid ⊢
      exact h.sequenceNr hinst hrunning hid
  | _ => exact h.sequenceNr hget hrunning hid

theorem Settled.run (C : Correct B V) (hw : Consistent B V w) (hclosed : Closed (history rs))
    (h : Settled B id rs n w) (steps : List Step) (hfits : ∀ k ≤ (w.run B steps).2.issued, V.Fits k) :
    Settled B id rs n (w.run B steps).2 :=
  (hw.along C hfits (fun hw _ hmove hlimit h => h.move C hw hmove
    (fun k hk => hfits k (Nat.le_trans hk hlimit)) hclosed) (w.run_moves steps) (Nat.le_refl _) h).2

/-! ### The end of a stream -/

/-- What holds of the cart `id` at `w'` if its stream held a checkout at `w`. -/
structure Final (B : Backend σ) (w w' : World σ) (id : String) (rs : List Record) (c : Cart) : Prop where
  /-- The checkout was the last event, -/
  read : B.readFrom (.ofCart id) 0 w.storage = .ok rs
  ends : ∃ past time, history rs = past ++ [.checkedOut id time] ∧ c = ⟨(Cart.replay .empty past).items, some time⟩
  /-- and still is. -/
  still : B.readFrom (.ofCart id) 0 w'.storage = .ok rs
  /-- Who was started since, or had applied the checkout, knows of it. -/
  arrived : ∀ {n inst}, w'.instances[n]? = some inst → inst.running = true → inst.id = id →
    (w.instances.length ≤ n ∨ ∃ inst₀, w.instances[n]? = some inst₀ ∧ inst₀.cart.isCheckedOut = true) →
    inst.cart.isCheckedOut = true
  /-- Who knows of it answers whatever is asked as the cart at the checkout does. -/
  settled : ∀ {n inst}, w'.instances[n]? = some inst → inst.running = true → inst.id = id →
    inst.cart.isCheckedOut = true → ∀ messages,
    (w'.send B n messages).1 = messages.map (finalAnswer c rs.length)
  /-- A store answers likewise, unless the instance it has does not know of it. -/
  handed : ∀ {k st}, w'.stores[k]? = some st → id ≠ "" →
    (∀ {n inst}, st.instance? id = some n → w'.instances[n]? = some inst → inst.running = true →
      inst.cart.isCheckedOut = true) → ∀ name message,
    (w'.sendThrough B k id name message).1 = [finalAnswer c rs.length message]
  /-- Who does not know of it is behind, and replies from there or stops. -/
  stale : ∀ {n inst}, w'.instances[n]? = some inst → inst.running = true → inst.id = id →
    inst.cart.isCheckedOut = false →
    inst.sequenceNr < rs.length ∧ inst.cart = cartAt rs inst.sequenceNr ∧ ∀ command context,
      (w'.send B n [.ask command context]).1 = [Answer.of (inst.cart.decide id w'.clock command).reply?] ∧
        ((inst.cart.decide id w'.clock command).reply? = none →
          (w'.send B n [.ask command context]).2.isRunning n = false)

/-! ### Instances at a closed stream -/

section
variable {inst : Instance} (hinst : w.instances[n]? = some inst) (hrunning : inst.running = true)
  (hrecords : w.records B (.ofCart inst.id) = rs)
include hinst hrunning hrecords

/-- Whoever applied the checkout is at the end, and whoever is at the end applied it. -/
theorem Consistent.isCheckedOut_iff (h : Consistent B V w) (hlegal : Legal inst.id (history rs))
    (hclosed : Closed (history rs)) : inst.cart.isCheckedOut = true ↔ inst.sequenceNr = rs.length := by
  have hf := h.follows inst (List.mem_of_getElem? hinst) hrunning
  subst hrecords
  exact ⟨fun hout => (hf.at_checkout h.healthy hlegal hout).1, fun hend => hf.isCheckedOut hend hclosed⟩

/-- An instance that applied the checkout answers as the cart did then. -/
theorem Consistent.send_settled (h : Consistent B V w) (hlegal : Legal inst.id (history rs)) {past : List Event}
    {time : Timestamp} (hends : history rs = past ++ [.checkedOut inst.id time])
    (hout : inst.cart.isCheckedOut = true) (messages : List Message) :
    (w.send B n messages).1 =
      messages.map (finalAnswer ⟨(Cart.replay .empty past).items, some time⟩ rs.length) := by
  have hf := h.follows inst (List.mem_of_getElem? hinst) hrunning
  subst hrecords
  obtain ⟨hend, past', time', hends', hcart⟩ := hf.at_checkout h.healthy hlegal hout
  obtain ⟨rfl, rfl⟩ := Cart.concat_checkedOut_inj (hends.symm.trans hends')
  have hlength : inst.sequenceNr = (w.records B (.ofCart inst.id)).length := hend
  obtain ⟨inst', hreceive, -⟩ := Instance.receive_checkedOut (B := B) (s := w.storage) hout hrunning
    ⟨w.clock, w.issued⟩ w.elapsed messages
  simp only [World.send, hinst, hreceive, hcart, hlength]

/-- An instance that is behind records nothing. -/
theorem Consistent.send_behind (C : Correct B V) (h : Consistent B V w) (hbehind : inst.sequenceNr < rs.length)
    (command : Command) (context : Context) :
    (w.send B n [.ask command context]).1 = [Answer.of (inst.cart.decide inst.id w.clock command).reply?] ∧
      ((inst.cart.decide inst.id w.clock command).reply? = none →
        (w.send B n [.ask command context]).2.isRunning n = false) := by
  obtain ⟨hlt, -⟩ := List.getElem?_eq_some_iff.1 hinst
  subst hrecords
  cases hreply : (inst.cart.decide inst.id w.clock command).reply? with
  | some reply =>
    have hask : Instance.ask B ⟨w.clock, w.issued⟩ { inst with lastHeard := w.elapsed } command context w.storage =
        (some reply, { inst with lastHeard := w.elapsed }, w.storage) := ask_replied hreply context
    simp only [World.send, hinst, Instance.receive_ask hrunning hask]
    exact ⟨trivial, fun hnone => by cases hnone⟩
  | none =>
    obtain ⟨event, hdecide⟩ := Cart.Effect.persist_of_reply?_eq_none hreply
    have hstale : ¬ Current B w.storage { inst with lastHeard := w.elapsed } := Nat.ne_of_lt hbehind
    obtain ⟨s', hask, -⟩ : ∃ s', Instance.ask B ⟨w.clock, w.issued⟩ { inst with lastHeard := w.elapsed } command
        context w.storage = (none, { inst with lastHeard := w.elapsed, running := false }, s') ∧ _ :=
      ask_refused C h.healthy (.inr hstale) hdecide context
    simp only [World.send, hinst, Instance.receive_ask hrunning hask]
    refine ⟨trivial, fun _ => ?_⟩
    simp only [World.isRunning, List.getElem?_set_self hlt]

end

/-- What a store hands out for a closed stream applied the checkout, unless it is an instance
that the store had before. -/
theorem Consistent.obtain_settled (C : Correct B V) (h : Consistent B V w) {k : Nat} {st : Store}
    (hst : w.stores[k]? = some st) (htakes : V.Takes (.ofCart id)) (hclosed : Closed (history (w.records B (.ofCart id))))
    (hhas : ∀ {n inst}, st.instance? id = some n → w.instances[n]? = some inst → inst.running = true →
      inst.cart.isCheckedOut = true) :
    ∃ inst, (w.obtain B k st id).2.instances[(w.obtain B k st id).1]? = some inst ∧ inst.id = id ∧
      inst.running = true ∧ inst.cart.isCheckedOut = true := by
  rw [World.obtain]
  split
  · next n hn =>
    obtain ⟨hstarted, hrunning⟩ := Option.filter_eq_some_iff.1 hn
    obtain ⟨inst, hinst, hid⟩ := World.ids_getElem? (h.started st (List.mem_of_getElem? hst) hstarted)
    rw [World.isRunning, hinst] at hrunning
    exact ⟨inst, hinst, hid, hrunning, hhas hstarted hinst hrunning⟩
  · have hstart := start_eq C h.healthy htakes st.journal st.settings w.elapsed
    refine ⟨_, List.getElem?_concat_length .., id_start .., congrArg Instance.running hstart, ?_⟩
    rw [hstart, cartAt_length, Cart.isCheckedOut_replay]
    exact hclosed

/-- A store that has no instance which is behind answers as the cart did at the checkout. -/
theorem Consistent.sendThrough_settled (C : Correct B V) (h : Consistent B V w) {k : Nat} {st : Store}
    (hst : w.stores[k]? = some st) (hid : id ≠ "") (htakes : V.Takes (.ofCart id))
    (hrecords : w.records B (.ofCart id) = rs) (hlegal : Legal id (history rs)) {past : List Event} {time : Timestamp}
    (hends : history rs = past ++ [.checkedOut id time])
    (hhas : ∀ {n inst}, st.instance? id = some n → w.instances[n]? = some inst → inst.running = true →
      inst.cart.isCheckedOut = true) (name : Option String) (message : Message) :
    (w.sendThrough B k id name message).1 =
      [finalAnswer ⟨(Cart.replay .empty past).items, some time⟩ rs.length message] := by
  have hclosed : Closed (history (w.records B (.ofCart id))) := by
    rw [hrecords, hends]
    exact ⟨id, time, List.mem_append_right _ (List.mem_singleton_self _)⟩
  obtain ⟨inst, hinst, rfl, hrunning, hout⟩ := h.obtain_settled C hst htakes hclosed hhas
  obtain ⟨h₁, -, hstorage, -⟩ := h.obtain C hst inst.id
  have hrecords₁ : B.recorded (w.obtain B k st inst.id).2.storage (.ofCart inst.id) = rs := by
    rw [hstorage]
    exact hrecords
  have hready : (w.obtain B k st inst.id).2.isRunning (w.obtain B k st inst.id).1 = true := by
    rw [World.isRunning, hinst]
    exact hrunning
  rw [World.sendThrough, hst]
  dsimp only
  rw [if_neg hid]
  cases name with
  | none =>
    rw [World.sendFirst, if_pos hready]
    exact h₁.send_settled hinst hrunning hrecords₁ hlegal hends hout [message]
  | some name =>
    rw [World.sendFirst, if_pos (show World.isRunning (World.keep _ name _) _ = true from hready)]
    have h₂ := h₁.keep name (w.obtain B k st inst.id).1
    exact h₂.send_settled (w := World.keep _ name _) hinst hrunning hrecords₁ hlegal hends hout [message]

/-- At the moment of the checkout, the instances that applied it are settled, and so are those
that are not there yet. -/
theorem Consistent.settled (h : Consistent B V w) (hrecords : w.records B (.ofCart id) = rs)
    (hlegal : Legal id (history rs)) (hclosed : Closed (history rs))
    (hwhy : w.instances.length ≤ n ∨ ∃ inst₀, w.instances[n]? = some inst₀ ∧ inst₀.cart.isCheckedOut = true) :
    Settled B id rs n w := by
  refine ⟨hrecords, fun {inst} hinst hrunning hid => ?_⟩
  subst hid
  rcases hwhy with hlater | ⟨inst₀, hinst₀, hout⟩
  · rw [List.getElem?_eq_none hlater] at hinst
    cases hinst
  · rw [hinst] at hinst₀
    obtain rfl := Option.some.inj hinst₀
    exact (h.isCheckedOut_iff hinst hrunning hrecords hlegal hclosed).1 hout

/-- **The end of a cart**, as long as the run goes on. -/
theorem Consistent.final (C : Correct B V) (h : Consistent B V w) (after : List Step)
    (hfits : ∀ k ≤ (w.run B after).2.issued, V.Fits k) (hrecords : w.records B (.ofCart id) = rs)
    (hlegal : Legal id (history rs)) (hclosed : Closed (history rs)) :
    ∃ c, Final B w (w.run B after).2 id rs c := by
  have h₂ := h.run C after hfits
  have hsettled := fun {n} hwhy => (h.settled (n := n) hrecords hlegal hclosed hwhy).run C h hclosed after hfits
  have hrecords₂ := (hsettled (.inl (Nat.le_refl _))).records
  obtain ⟨past, time, hends⟩ := hlegal.ends hclosed
  have htakes : V.Takes (.ofCart id) := by
    refine h.healthy.takes C fun hnone => ?_
    have hempty : rs = [] := hrecords.symm.trans hnone
    rw [hempty] at hclosed
    obtain ⟨cart, time, hmem⟩ := hclosed
    cases hmem
  refine ⟨⟨(Cart.replay .empty past).items, some time⟩, ?_⟩
  exact {
    read := hrecords ▸ C.readAll h.healthy.inv htakes
    ends := ⟨past, time, hends, rfl⟩
    still := hrecords₂ ▸ C.readAll h₂.healthy.inv htakes
    arrived := fun {n inst} hinst hrunning hid hwhy => by
      have hend := (hsettled hwhy).sequenceNr hinst hrunning hid
      subst hid
      exact (h₂.isCheckedOut_iff hinst hrunning hrecords₂ hlegal hclosed).2 hend
    settled := fun {n inst} hinst hrunning hid hout messages => by
      subst hid
      exact h₂.send_settled hinst hrunning hrecords₂ hlegal hends hout messages
    handed := fun {k st} hst hid hhas name message =>
      h₂.sendThrough_settled C hst hid htakes hrecords₂ hlegal hends hhas name message
    stale := fun {n inst} hinst hrunning hid hopen => by
      subst hid
      have hf := h₂.follows inst (List.mem_of_getElem? hinst) hrunning
      have hle : inst.sequenceNr ≤ rs.length := hrecords₂ ▸ hf.le
      have hbehind : inst.sequenceNr < rs.length := Nat.lt_of_le_of_ne hle fun hend => by
        rw [(h₂.isCheckedOut_iff hinst hrunning hrecords₂ hlegal hclosed).2 hend] at hopen
        cases hopen
      exact ⟨hbehind, hrecords₂ ▸ hf.cart, h₂.send_behind hinst hrunning hrecords₂ C hbehind⟩ }

/-! ### In the middle of a step -/

/-- An instance that came to the checkout with some of its messages is at the end of its
stream by then. -/
theorem Consistent.served_to_checkout (C : Correct B V) (h : Consistent B V w) {inst i' : Instance}
    (hinst : inst ∈ w.instances) (hrunning : inst.running = true) {messages : List Message}
    (hfits : ∀ k ≤ w.issued + messages.length, V.Fits k) {answers : List Answer} {s' : σ}
    (hserve : Instance.serve B ⟨w.clock, w.issued⟩ { inst with lastHeard := w.elapsed } w.storage messages =
      (answers, i', s')) (hserved : i'.running = true) (hout : i'.cart.isCheckedOut = true)
    (hlegal : Legal inst.id (history (B.recorded s' (.ofCart inst.id)))) :
    i'.sequenceNr = (B.recorded s' (.ofCart inst.id)).length ∧ ∃ past time,
      history (B.recorded s' (.ofCart inst.id)) = past ++ [.checkedOut inst.id time] ∧
        i'.cart = ⟨(Cart.replay .empty past).items, some time⟩ := by
  have hf := h.follows inst hinst hrunning
  have hcounted : (B.recorded w.storage inst.stream).length ≤ w.issued := h.counted inst.stream
  have hroom : ∀ k ≤ (B.recorded w.storage inst.stream).length + messages.length, V.Fits k := fun k hk =>
    hfits k (by omega)
  obtain ⟨answers', i₁, s₁, hserve', hprogress, -⟩ := serve_told C messages
    (i := { inst with lastHeard := w.elapsed }) h.healthy (fun _ => ⟨hf.takes, hf.le, hf.cart⟩)
    ⟨w.clock, w.issued⟩ hroom
  obtain ⟨rfl, rfl, rfl⟩ : answers' = answers ∧ i₁ = i' ∧ s₁ = s' := by
    rw [hserve] at hserve'
    simpa [eq_comm] using hserve'
  have hid : i₁.id = inst.id := hprogress.id
  have hstream : i₁.stream = .ofCart inst.id := congrArg StreamId.ofCart hid
  have hend := (hprogress.follows hserved).at_checkout hprogress.healthy (by rwa [hid, hstream]) hout
  rwa [hstream, hid] at hend

/-- Messages that wait behind the one with which the checkout is applied, in the mailbox or for a
slot of it, are answered by the cart at the checkout already. -/
theorem Untouched.queued (C : Correct B V) (h : Untouched B V w) {before : List Step} {name : String}
    {messages more : List Message}
    (hfits : ∀ k ≤ (w.run B (before ++ [.send name (messages ++ more)])).2.issued, V.Fits k) {inst i' : Instance}
    {answers : List Answer} {s' : σ} (hname : (w.run B before).2.named? name = some n)
    (hinst : (w.run B before).2.instances[n]? = some inst) (hrunning : inst.running = true)
    (htogether : (messages ++ more).length ≤ inst.settings.slots ∨ (messages ++ more).any Message.isPassivate = false)
    (hserve : Instance.serve B ⟨(w.run B before).2.clock, (w.run B before).2.issued⟩
      { inst with lastHeard := (w.run B before).2.elapsed } (w.run B before).2.storage messages = (answers, i', s'))
    (hserved : i'.running = true) (hout : i'.cart.isCheckedOut = true) :
    ∃ rs c, Final B (w.run B (before ++ [.send name (messages ++ more)])).2
        (w.run B (before ++ [.send name (messages ++ more)])).2 inst.id rs c ∧
      ((w.run B before).2.act B (.send name (messages ++ more))).1 = answers ++ more.map (finalAnswer c rs.length) := by
  have hrun : (w.run B (before ++ [.send name (messages ++ more)])).2 =
      ((w.run B before).2.act B (.send name (messages ++ more))).2 := by rw [World.run_append]; rfl
  have hlegal := h.legal C _ hfits inst.id
  have hfinal := (h.consistent.run C _ hfits).final C [] hfits rfl hlegal
  have hw₁ := h.consistent.run C before fun k hk =>
    hfits k (Nat.le_trans hk (hrun ▸ World.issued_le_act _ _))
  rw [World.run] at hfinal
  rw [hrun] at hfits hlegal hfinal ⊢
  generalize (w.run B before).2 = w₁ at *
  -- The step is a batch that is answered as its first part leaves the instance.
  obtain ⟨i'', hbatch, -, hstays⟩ := Instance.receive_behind hrunning hserve hserved hout more
  have hact : w₁.act B (.send name (messages ++ more)) = (answers ++ more.map (finalAnswer i'.cart i'.sequenceNr),
      { w₁ with
        storage := s'
        issued := w₁.issued + (messages ++ more).length
        instances := w₁.instances.set n i'' }) := by
    rw [World.act_send hinst hrunning hname]
    · simp only [World.send, hinst, hbatch]
    · refine htogether.imp_right fun hnone => ⟨hnone, ?_⟩
      rw [World.isRunning_send hinst, hbatch, hstays, hnone]
      rfl
  rw [hact] at hfits hlegal hfinal ⊢
  have hroom : ∀ k ≤ w₁.issued + messages.length, V.Fits k := fun k hk =>
    have hfits : ∀ k ≤ w₁.issued + (messages ++ more).length, V.Fits k := hfits
    hfits k (by rw [List.length_append]; omega)
  obtain ⟨hend, past, time, hends, hcart⟩ :=
    hw₁.served_to_checkout C (List.mem_of_getElem? hinst) hrunning hroom hserve hserved hout hlegal
  obtain ⟨c, hc⟩ := hfinal ⟨inst.id, time, by
    show Event.checkedOut inst.id time ∈ history (B.recorded s' (.ofCart inst.id))
    rw [hends]
    exact List.mem_append_right _ (List.mem_singleton_self _)⟩
  obtain ⟨past', time', hends', rfl⟩ := hc.ends
  have hends' : history (B.recorded s' (.ofCart inst.id)) = past' ++ [.checkedOut inst.id time'] := hends'
  obtain ⟨rfl, rfl⟩ := Cart.concat_checkedOut_inj (hends.symm.trans hends')
  exact ⟨_, _, hc, by rw [hcart, hend]⟩

/-! ### Checkouts -/

/-- A checkout is the end of a cart in a run, after the step in which it was recorded and within
it. -/
structure Conclusive (B : Backend σ) (w : World σ) (steps : List Step) : Prop where
  final : ∀ {before after}, steps = before ++ after → ∀ {id},
    Closed (history ((w.run B before).2.records B (.ofCart id))) →
    ∃ rs c, Final B (w.run B before).2 (w.run B steps).2 id rs c
  /-- In a step whose messages the mailbox takes together, or in which nobody asks the instance to
  stop. Any other is as many steps as it fills the mailbox (`World.act_send_append`). -/
  queued : ∀ {before name messages more after}, steps = before ++ .send name (messages ++ more) :: after →
    ∀ {n inst answers i' s'}, (w.run B before).2.named? name = some n →
    (w.run B before).2.instances[n]? = some inst → inst.running = true →
    ((messages ++ more).length ≤ inst.settings.slots ∨ (messages ++ more).any Message.isPassivate = false) →
    Instance.serve B ⟨(w.run B before).2.clock, (w.run B before).2.issued⟩
      { inst with lastHeard := (w.run B before).2.elapsed } (w.run B before).2.storage messages = (answers, i', s') →
    i'.running = true → i'.cart.isCheckedOut = true →
    ∃ rs c, Final B (w.run B (before ++ [.send name (messages ++ more)])).2
        (w.run B (before ++ [.send name (messages ++ more)])).2 inst.id rs c ∧
      ((w.run B before).2.act B (.send name (messages ++ more))).1 = answers ++ more.map (finalAnswer c rs.length)

theorem Untouched.conclusive (C : Correct B V) (h : Untouched B V w) (steps : List Step)
    (hfits : ∀ k ≤ (w.run B steps).2.issued, V.Fits k) : Conclusive B w steps where
  final := by
    rintro before after rfl id hclosed
    rw [World.run_append] at hfits ⊢
    have hfits₁ : ∀ k ≤ (w.run B before).2.issued, V.Fits k := fun k hk =>
      hfits k (Nat.le_trans hk (World.issued_le_run _ after))
    exact ⟨_, (h.consistent.run C before hfits₁).final C after hfits rfl (h.legal C before hfits₁ id) hclosed⟩
  queued := by
    rintro before name messages more after rfl n inst answers i' s' hname hinst hrunning htogether hserve hserved hout
    refine h.queued C (fun k hk => hfits k (Nat.le_trans hk ?_)) hname hinst hrunning htogether hserve hserved hout
    rw [← List.singleton_append (l := after), ← List.append_assoc, World.run_append _ _ (before ++ _)]
    exact World.issued_le_run _ after

/-- **Checkout is final.** Whatever instances share a storage, in memory or in an empty
directory, and whatever they are asked: once a cart's stream has a checkout it never gets
another record, and whoever applied the checkout or was started later answers every command
as the cart at the checkout does. Numbers of records in files have 64 bits, so fewer messages
than that are sent there. -/
theorem checkout_final :
    (∀ w : World Memory, w.Fresh → w.storage = .empty → ∀ steps, Conclusive memory w steps) ∧
      ∀ w : World Files, w.Fresh → w.storage.disk = .empty → w.storage.tails = [] → ∀ steps,
        (w.run files steps).2.issued < UInt64.size → Conclusive files w steps := by
  constructor
  · intro w hfresh hstorage steps
    exact (untouched_memory hfresh hstorage).conclusive Storage.correct_memory steps fun _ _ => trivial
  · intro w hfresh hdisk htails steps hissued
    exact (untouched_files hfresh hdisk htails).conclusive Storage.correct_files steps fun n hn =>
      Nat.lt_of_le_of_lt hn hissued

/-- A cart is checked out through one store. An instance of another store was there before and is
behind, and one that is started after a restart knows of the checkout. -/
theorem checkout_behind_a_store :
    let settings : Settings := ⟨300000, ⟨2, 1⟩, Settings.cartShards 10, 32⟩
    let sold : List Step := [.observe 1 "a" (some "late"), .ask 0 "a" (.addItem ⟨"x", by decide⟩ 1) .anonymous,
      .ask 0 "a" .checkout .anonymous]
    let later : List Step := [.send "late" [.ask .get .anonymous, .ask (.addItem ⟨"x", by decide⟩ 2) .anonymous],
      .restart 1, .ask 1 "a" .checkout .anonymous]
    let remembered : World Memory := .begin memory .empty Timestamp.epoch settings 0 2
    let filed : World Files := .begin files (.onDisk .empty) Timestamp.epoch settings 0 2
    (filed.run files (sold ++ later)).2.issued < UInt64.size ∧
      Closed (history ((remembered.run memory sold).2.records memory (.ofCart "a"))) ∧
      Conclusive memory remembered (sold ++ later) ∧ Conclusive files filed (sold ++ later) := by
  intro settings sold later remembered filed
  have hissued : (filed.run files (sold ++ later)).2.issued < UInt64.size :=
    Nat.lt_of_le_of_lt (filed.issues_run (sold ++ later)).2 (by decide)
  have hclosed : (Cart.replay .empty (history ((remembered.run memory sold).2.records memory (.ofCart "a")))).isCheckedOut =
      true := by decide +kernel
  exact ⟨hissued, (Cart.isCheckedOut_replay _).1 hclosed, checkout_final.1 remembered ⟨rfl, by decide, rfl⟩ rfl _,
    checkout_final.2 filed ⟨rfl, by decide, rfl⟩ rfl rfl _ hissued⟩

end CartLedger.Entity
