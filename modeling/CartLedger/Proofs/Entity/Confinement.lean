import CartLedger.Proofs.Entity.Beginning
import CartLedger.Proofs.Entity.Turns
import CartLedger.Proofs.Storage.Confinement

/-! What carts reach on disk.

A cart acts on the disk through the journal and the snapshots of its own id, so a step
changes what may be changed under the id it is addressed to (`StepConfined`), and nothing of
any other. A cart whose id cannot be used never runs: it cannot read its stream, so it stops
before it is heard. What was sent to it by then is abandoned, and what is sent later refused
(`Stillborn`). -/
namespace CartLedger.Entity
open CartLedger.Cart (Command)
open CartLedger.Storage (Path Files files Confined Within Access)
open CartLedger.Storage.Layout (Usable isUsable refusal streamDirectory snapshotDirectory entityDirectory_apart)
open CartLedger.Time (Timestamp)
open Instance (Message Surroundings)

/-! ### Instances -/

section
variable {i : Instance} {s : Files}

/-- A command is carried out under the id of the cart. -/
theorem confined_ask (env : Surroundings) (command : Command) (context : Context) :
    Confined i.stream s.disk (Instance.ask files env i command context s).2.2.disk := by
  unfold Instance.ask
  split
  · exact .refl ..
  · exact .refl ..
  · next event _ =>
    have happend : Confined i.stream s.disk
        (files.append i.journal (Record.ofEvent (i.entry env context) event) s).2.disk :=
      .appendRecord s i.journal (Record.ofEvent (i.entry env context) event)
    split
    · next heq =>
      rwa [heq] at happend
    · next s₁ heq =>
      rw [heq] at happend
      refine happend.trans ?_
      dsimp only
      unfold Instance.saveIfDue
      split
      · exact .save ..
      · exact .refl ..

theorem confined_serve (messages : List Message) (i : Instance) (s : Files) (env : Surroundings) :
    Confined i.stream s.disk (Instance.serve files env i s messages).2.2.disk := by
  induction messages generalizing i s env with
  | nil => exact .refl ..
  | cons message rest ih =>
    unfold Instance.serve
    split
    · have hid := (same_answer (B := files) (i := i) (s := s) env message).id
      have hanswer : Confined i.stream s.disk (Instance.answer files env i s message).2.2.disk := by
        rcases answer_cases (B := files) (i := i) (s := s) env message with he | ⟨command, context, he⟩
        · rw [he]
          exact .refl ..
        · rw [he]
          exact confined_ask env command context
      have hrest := ih (Instance.answer files env i s message).2.1 (Instance.answer files env i s message).2.2
        { env with issued := env.issued + 1 }
      rw [Instance.stream, hid] at hrest
      exact hanswer.trans hrest
    · exact .refl ..

theorem confined_receive (env : Surroundings) (now : Nat) (i : Instance) (messages : List Message) (s : Files) :
    Confined i.stream s.disk (Instance.receive files env now i messages s).2.2.disk := by
  unfold Instance.receive
  split
  · exact confined_serve messages { i with lastHeard := now } s env
  · exact .refl ..

/-- An instance cannot recover under an id that cannot be used. -/
theorem usable_of_start {id : String} {journal : Nat} {settings : Settings} {now : Nat}
    (h : (Instance.start files id journal settings now s).running) : Usable (.ofCart id) := by
  by_contra hid
  have hrecover : Instance.recover files (.ofCart id) s = none := by
    unfold Instance.recover
    have hread : ∀ start, files.readFrom (.ofCart id) start s = .error (refusal (.ofCart id)) :=
      Journal.Durable.readFrom_unusable hid s
    simp only [hread]
  rw [Instance.start, hrecover] at h
  cases h

end

/-! ### Worlds -/

variable {w w' : World Files}

/-- Stores find under an id what was started for it, and nothing runs under an id that cannot be
used. -/
structure Housed (w : World Files) : Prop where
  entered : ∀ st ∈ w.stores, ∀ {id i}, st.instance? id = some i → w.ids[i]? = some id
  usable : ∀ inst ∈ w.instances, inst.running → Usable inst.stream

namespace Housed

theorem of_fresh (h : w.Fresh) : Housed w where
  entered st hst {id i} hi := by
    rw [Store.instance?, h.stores st hst] at hi
    cases hi
  usable inst hinst := by
    rw [h.instances] at hinst
    cases hinst

theorem subdued (h : Housed w) (hstores : w'.stores = w.stores) (hids : w'.ids = w.ids)
    (hsubdued : Subdued w w') : Housed w' where
  entered st hst {id i} hi := by
    rw [hids]
    exact h.entered st (hstores ▸ hst) hi
  usable inst' hinst' hrun := by
    obtain ⟨inst, hinst, hrunning, hid, -, -⟩ := hsubdued inst' hinst' hrun
    rw [Instance.stream, hid]
    exact h.usable inst hinst hrunning

theorem start (h : Housed w) (id : String) (journal : Nat) (settings : Settings) :
    Housed (w.start files id journal settings).2 where
  entered st hst {id' i} hi := by
    have hold := h.entered st hst hi
    rw [World.ids_start, List.getElem?_append_left (List.getElem?_eq_some_iff.1 hold).1]
    exact hold
  usable inst hinst hrun := by
    rcases List.mem_append.1 hinst with hinst | hinst
    · exact h.usable inst hinst hrun
    · rw [List.mem_singleton.1 hinst] at hrun ⊢
      rw [Instance.stream, id_start]
      exact usable_of_start hrun

/-- **One move** houses nobody under an id that cannot be used. -/
theorem move (h : Housed w) (hmove : Move files w w') : Housed w' := by
  cases hmove with
  | @setStore n st st' hst _ hstarted =>
    refine ⟨fun other hother {id i} hi => ?_, h.usable⟩
    rcases List.mem_or_eq_of_mem_set hother with hother | rfl
    · exact h.entered other hother hi
    · exact (hstarted hi).elim (h.entered st (List.mem_of_getElem? hst)) fun hnew => hnew
  | start hst id journal => exact h.start id journal _
  | send i messages =>
    unfold World.send
    split
    · exact h
    · next inst hi =>
      have hsame := same_receive (B := files) (i := inst) (s := w.storage) ⟨w.clock, w.issued⟩ w.elapsed messages
      refine ⟨fun other hother {id j} hj => ?_, fun inst' hinst' hrun => ?_⟩
      · show ((w.instances.set i _).map Instance.id)[j]? = some id
        rw [World.ids_set hi hsame.id]
        exact h.entered other hother hj
      · rcases List.mem_or_eq_of_mem_set hinst' with hinst' | rfl
        · exact h.usable inst' hinst' hrun
        · rw [Instance.stream, hsame.id]
          by_cases hrunning : inst.running
          · exact h.usable inst (List.mem_of_getElem? hi) hrunning
          · rw [Instance.receive, if_neg fun hheard => hrunning hheard.1] at hrun
            exact absurd hrun hrunning
  | stop i =>
    obtain ⟨instances, hstop, hids⟩ := w.stop_eq i
    have hsubdued := subdued_stop w i
    rw [hstop] at hsubdued ⊢
    exact h.subdued rfl hids hsubdued
  | sleep ms => exact h.subdued rfl (w.ids_sleep ms) (subdued_sleep w ms)
  | _ => exact ⟨h.entered, h.usable⟩

theorem moves (h : Housed w) (hmoves : Moves files w w') : Housed w' := by
  induction hmoves with
  | refl => exact h
  | tail _ hlast ih => exact ih.move hlast

/-- It is nothing to instances what becomes of the storage. -/
theorem turn (h : Housed w) (turn : Turn Files) : Housed (turn.act files w).2 := by
  cases turn with
  | step step => exact h.moves (w.act_moves step)
  | obtain s id name => exact h.moves (w.handOut_moves files s id name)
  | meddle change => exact ⟨h.entered, h.usable⟩

theorem after (h : Housed w) (turns : List (Turn Files)) : Housed (Turn.after files w turns) := by
  induction turns generalizing w with
  | nil => exact h
  | cons first rest ih => exact ih (h.turn first)

/-- A store hands out an instance of the cart it is asked for. -/
theorem obtain (h : Housed w) {s : Nat} {st : Store} (hst : w.stores[s]? = some st) (id : String) :
    Housed (w.obtain files s st id).2 ∧ (w.obtain files s st id).2.ids[(w.obtain files s st id).1]? = some id ∧
      (w.obtain files s st id).2.storage = w.storage := by
  refine ⟨h.moves (World.obtain_moves hst id), ?_⟩
  unfold World.obtain
  split
  · next i hi => exact ⟨h.entered st (List.mem_of_getElem? hst) (Option.filter_eq_some_iff.1 hi).1, rfl⟩
  · exact ⟨w.id_of_start id st.journal st.settings, rfl⟩

theorem not_running (h : Housed w) {i : Nat} {id : String} (hi : w.ids[i]? = some id) (hid : ¬ Usable (.ofCart id)) :
    w.isRunning i = false := by
  obtain ⟨inst, hinst, rfl⟩ := World.ids_getElem? hi
  rw [World.isRunning, hinst]
  exact Bool.eq_false_iff.2 fun hrun => hid (h.usable inst (List.mem_of_getElem? hinst) hrun)

end Housed

/-! ### Steps -/

/-- What a step changes on disk lies with the id it is addressed to. -/
def StepConfined (w : World Files) (step : Step) : Prop :=
  match w.addressed step with
  | some (id, _) => Within (.ofCart id) w.storage (w.act files step).2.storage
  | none => (w.act files step).2.storage.disk = w.storage.disk

theorem confined_send {i : Nat} {id : String} (hi : w.ids[i]? = some id) (messages : List Message) :
    Confined (.ofCart id) w.storage.disk (w.send files i messages).2.storage.disk := by
  obtain ⟨inst, hinst, rfl⟩ := World.ids_getElem? hi
  simp only [World.send, hinst]
  exact confined_receive ..

theorem confined_inTurns {i : Nat} {messages : List Message} {answers : List Instance.Answer}
    (h : InTurns files i w messages answers w') {id : String} (hi : w.ids[i]? = some id) :
    Confined (.ofCart id) w.storage.disk w'.storage.disk := by
  induction h with
  | nil => exact .refl ..
  | @cons w w' filling rest answers _ ih =>
    exact (confined_send hi filling).trans (ih (by rwa [w.ids_send]))

theorem confined_sendFirst {i : Nat} {id : String} (hi : w.ids[i]? = some id) (messages : List Message) :
    Confined (.ofCart id) w.storage.disk (w.sendFirst files i messages).2.storage.disk := by
  unfold World.sendFirst
  split
  · exact confined_send hi messages
  · exact .refl ..

namespace Housed

theorem confined_sendThrough (h : Housed w) (s : Nat) (id : String) (name : Option String) (message : Message) :
    Confined (.ofCart id) w.storage.disk (w.sendThrough files s id name message).2.storage.disk := by
  unfold World.sendThrough
  split
  · exact .refl ..
  · next st hst =>
    split
    · exact .refl ..
    · obtain ⟨-, hi, hstorage⟩ := h.obtain hst id
      rw [← hstorage]
      cases name with
      | none => exact confined_sendFirst hi [message]
      | some name => exact confined_sendFirst (w := (w.obtain files s st id).2.keep name _) hi [message]

/-- **One step** keeps to the id it is addressed to. -/
theorem act_confined (h : Housed w) (step : Step) : StepConfined w step := by
  unfold StepConfined
  cases step with
  | ask s id command context => exact (h.confined_sendThrough s id none _).within
  | observe s id name => exact (h.confined_sendThrough s id name _).within
  | spawn s id name =>
    refine Confined.within ?_
    simp only [World.act]
    split
    · next st _ =>
      let opened : World Files := { w with storage := (files.openJournal w.storage).2 }
      have hi := opened.id_of_start (B := files) id (files.openJournal w.storage).1 st.settings
      exact confined_sendFirst (w := (opened.start files id (files.openJournal w.storage).1 st.settings).2.keep name _)
        hi [.observe]
    · exact .refl ..
  | send name messages =>
    simp only [World.addressed, World.act]
    cases hname : w.named? name with
    | none => rfl
    | some i =>
      simp only [Option.bind_some]
      cases hi : w.instances[i]? with
      | none => simp only [World.sendAll, hi, Option.map_none]
      | some inst =>
        have hid : w.ids[i]? = some inst.id := by rw [World.ids, List.getElem?_map, hi]; rfl
        exact (confined_inTurns (World.inTurns_sendAll hi messages) hid).within
  | passivateAll s =>
    simp only [World.addressed, World.act, World.withStore]
    split
    · next st _ =>
      obtain ⟨instances, hstop⟩ := w.passivateAll_eq s st
      rw [hstop]
    · rfl
  | restart s =>
    simp only [World.addressed, World.act, World.withStore]
    split <;> rfl
  | _ => rfl

end Housed

/-! ### Carts that never run -/

/-- How those fare who ask a cart whose id cannot be used on disk. -/
structure Stillborn (w : World Files) (id : String) : Prop where
  stopped : ∀ inst ∈ w.instances, inst.id = id → inst.running = false
  /-- Through a store, there is no reply; the empty id is refused as such. -/
  unanswered : ∀ {s st}, w.stores[s]? = some st → ∀ command context,
    (w.act files (.ask s id command context)).1 = [.reply (.error (if id = "" then .invalidEntityId else .noReply))]
  /-- What is queued for a new instance is abandoned, -/
  abandoned : ∀ journal settings messages,
    ((w.start files id journal settings).2.sendFirst files (w.start files id journal settings).1 messages).1 =
      messages.map Message.abandoned
  /-- and what is sent later, to one that is kept, is refused. -/
  refused : ∀ {name i}, w.named? name = some i → w.ids[i]? = some id → ∀ messages,
    (w.act files (.send name messages)).1 = messages.map Message.refused

namespace Housed

theorem sendFirst_abandoned (h : Housed w) {i : Nat} {id : String} (hi : w.ids[i]? = some id)
    (hid : ¬ Usable (.ofCart id)) (messages : List Message) :
    (w.sendFirst files i messages).1 = messages.map Message.abandoned := by
  rw [World.sendFirst, h.not_running hi hid]
  rfl

theorem stillborn (h : Housed w) {id : String} (hid : ¬ isUsable id) : Stillborn w id := by
  have hid' : ¬ Usable (.ofCart id) := fun husable => hid husable.2
  refine ⟨?_, ?_, ?_, ?_⟩
  · rintro inst hinst rfl
    exact Bool.eq_false_iff.2 fun hrun => hid' (h.usable inst hinst hrun)
  · intro s st hst command context
    simp only [World.act, World.sendThrough, hst]
    split
    · rfl
    · obtain ⟨hhoused, hi, -⟩ := h.obtain hst id
      exact hhoused.sendFirst_abandoned hi hid' _
  · intro journal settings messages
    exact (h.start id journal settings).sendFirst_abandoned (w.id_of_start id journal settings) hid' messages
  · intro name i hname hi messages
    obtain ⟨inst, hinst, rfl⟩ := World.ids_getElem? hi
    have hstopped : inst.running = false :=
      Bool.eq_false_iff.2 fun hrun => hid' (h.usable inst (List.mem_of_getElem? hinst) hrun)
    simp only [World.act, hname]
    exact (World.inTurns_sendAll hinst messages).refused hinst hstopped

end Housed

/-- **Files are confined and isolated.** What is done under an id, by a journal, a store of
snapshots or a cart, changes nothing on disk but the files that belong to the id and makes no
directories but those above them; nothing of any other id changes. Nothing at all is done
under an id whose parts are not plain names: operations refuse it, and a cart of that name
never runs, so who asks it gets no reply, or is told that it is gone. Ids that can be
used have directories of their own. -/
theorem files_confined :
    (∀ (access : Access) (s : Files), Within access.id s (access.act s).2 ∧
      (¬ Usable access.id → access.act s = (.error (refusal access.id), s))) ∧
    (∀ a b, Usable a → Usable b → a ≠ b → ∀ base, ∀ directory ∈ [streamDirectory, snapshotDirectory],
      ∃ p q, directory a = .ok p ∧ directory b = .ok q ∧ Path.shown base p ≠ Path.shown base q) ∧
    ∀ w : World Files, w.Fresh → ∀ turns,
      (∀ step, StepConfined (Turn.after files w turns) step) ∧
      ∀ id, ¬ isUsable id → Stillborn (Turn.after files w turns) id := by
  refine ⟨fun access s => ⟨(access.confined s).within, fun hid => access.refused hid s⟩, ?_, ?_⟩
  · intro a b ha hb hne base directory hdirectory
    rcases List.mem_pair.1 hdirectory with rfl | rfl
    · exact entityDirectory_apart ha hb hne "streams" base
    · exact entityDirectory_apart ha hb hne "snapshots" base
  · intro w hfresh turns
    have h := (Housed.of_fresh hfresh).after turns
    exact ⟨h.act_confined, fun id hid => h.stillborn hid⟩

/-- A snapshot is saved of one cart; nothing comes of an id that leads to it from elsewhere. -/
theorem escaping_cart_confined :
    let settings : Settings := ⟨300000, ⟨100, 1⟩, Settings.cartShards 10, 32⟩
    let w : World Files := .begin files (.onDisk .empty) Timestamp.epoch settings 0 1
    let turns : List (Turn Files) := [.step (.ask 0 "a" (.addItem ⟨"x", by decide⟩ 1) .anonymous), .obtain 0 "../a" none]
    let save : Access := .save (.ofCart "a") ⟨.null, 1⟩ ⟨100, 1⟩
    let escape : Access := .save (.ofCart "../a") ⟨.null, 1⟩ ⟨100, 1⟩
    let path : Path := ["snapshots", "ShoppingCart", "a", "snapshot-00000000000000000001.json"]
    (save.act w.storage).2.disk.isFile path = true ∧ Within save.id w.storage (save.act w.storage).2 ∧
      ¬ Usable escape.id ∧ escape.act w.storage = (.error (.unusableName "../a"), w.storage) ∧
      (∃ p q, streamDirectory ⟨"T", "a"⟩ = .ok p ∧ streamDirectory ⟨"T", "b"⟩ = .ok q ∧
        p.shown "base" ≠ q.shown "base") ∧ w.Fresh ∧
      StepConfined (Turn.after files w turns) (.ask 0 "a" .checkout .anonymous) ∧
      ¬ isUsable "../a" ∧ Stillborn (Turn.after files w turns) "../a" := by
  intro settings w turns save escape path
  obtain ⟨haccess, hapart, hworld⟩ := files_confined
  have hescape : ¬ Usable escape.id := by decide
  have hwhy : refusal escape.id = .unusableName "../a" := by decide
  have hfresh : w.Fresh := ⟨rfl, by decide, rfl⟩
  obtain ⟨hsteps, hstillborn⟩ := hworld w hfresh turns
  have hdirectories := hapart ⟨"T", "a"⟩ ⟨"T", "b"⟩ (by decide) (by decide) (by decide) "base" streamDirectory
    (List.mem_cons_self ..)
  exact ⟨by decide +kernel, (haccess save w.storage).1, hescape, hwhy ▸ (haccess escape w.storage).2 hescape,
    hdirectories, hfresh, hsteps _, by decide, hstillborn _ (by decide)⟩

/-- One who keeps a cart that could not be started is told that it is gone, not left without a
reply. -/
theorem kept_cart_gone :
    let settings : Settings := ⟨300000, ⟨100, 1⟩, Settings.cartShards 10, 32⟩
    let w : World Files := .begin files (.onDisk .empty) Timestamp.epoch settings 0 1
    ¬ isUsable ".." ∧
      (w.run files [.spawn 0 ".." "kept", .send "kept" [.ask .get .anonymous]]).1 =
        [[.state (.error .entityGone)], [.reply (.error .entityGone)]] ∧
      AskError.entityGone ≠ .noReply := by
  exact ⟨by decide, by rfl, by decide⟩

end CartLedger.Entity
