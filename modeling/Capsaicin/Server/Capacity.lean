/-
The command line's server behind its limit of connections, and what a peer without the
password gets from it.
-/

import Capsaicin.Library.Permits
import Capsaicin.Net.Reached
import Capsaicin.Server.Sessions

namespace Capsaicin.Server

open Duplex (Script Trail)
open Net (AcceptedLink Channel NetError Rsa ServerLinkOptions linkServer withHeader)
open Proto

variable {PrivateKey PublicKey Coins : Type} (rsa : Rsa PrivateKey PublicKey Coins)
  (opts : ServerLinkOptions PrivateKey)

def MAX_CONCURRENT_CONNS : Nat := 64

/-! ### The loop -/

def Conn.takes : Conn → Io → List UInt8
  | .linking script, .byte byte =>
      match script.act with
      | .read _ => [byte]
      | _ => []
  | .booting _ channel stage, .byte byte =>
      match serveAct channel defaultChannels stage with
      | .read _ => [byte]
      | _ => []
  | .idling _ _ _, .byte byte => [byte]
  | .attached _ _ _, .byte byte => [byte]
  | _, _ => []

def Conn.gives : Conn → Io → List UInt8
  | .linking script, .go _ =>
      match script.act with
      | .write items _ => items
      | _ => []
  | .booting _ channel stage, .go _ =>
      match serveAct channel defaultChannels stage with
      | .write items _ => items
      | _ => []
  | _, _ => []

def Conn.over : Conn → Bool
  | .ended => true
  | _ => false

/-- A task of `serve_flow`, with its permit and with all that it has read and written. -/
structure Served where
  conn : Conn
  permit : Bool
  got : List UInt8
  sent : List UInt8

def Served.start : Served where
  conn := .linking (linkServer rsa opts)
  permit := true
  got := []
  sent := []

def Served.turn (live : Finset Nat) (task : Served) (io : Io) : Served where
  conn := (task.conn.step live io).2
  permit := task.permit
  got := task.got ++ task.conn.takes io
  sent := task.sent ++ task.conn.gives io

structure Flow where
  live : Finset Nat
  tasks : List Served
  free : Nat

/-- A connection arrives, a task does a step, or it drops its permit in its end. -/
inductive FlowEvent where
  | accept
  | turn (index : Nat) (io : Io)
  | drop (index : Nat)

def Flow.start : Flow where
  live := ∅
  tasks := []
  free := MAX_CONCURRENT_CONNS

/-- A step of `serve_flow` and its tasks. At capacity a new connection is dropped. -/
def Flow.step (flow : Flow) : FlowEvent → Flow
  | .accept =>
      match flow.free with
      | 0 => flow
      | free + 1 => { flow with tasks := flow.tasks ++ [Served.start rsa opts], free := free }
  | .turn index io =>
      match flow.tasks[index]? with
      | none => flow
      | some task =>
          { flow with
            live := (task.conn.step flow.live io).1
            tasks := flow.tasks.set index (task.turn flow.live io) }
  | .drop index =>
      match flow.tasks[index]? with
      | none => flow
      | some task =>
          if task.conn.over && task.permit then
            { flow with
              tasks := flow.tasks.set index { task with permit := false }
              free := flow.free + 1 }
          else flow

def serveFlow (events : List FlowEvent) : Flow := events.foldl (Flow.step rsa opts) Flow.start

/-! ### What a peer has shown and seen -/

/-- A ticket with the password is among the first bytes. -/
def Proved (got : List UInt8) : Prop :=
  ∃ before ticket after pt, got = before ++ ticket ++ after ∧
    before.length ≤ LINK_HEADER_SIZE + MAX_LINK_PAYLOAD ∧ ticket.length = ENCRYPTED_TICKET_SIZE ∧
    rsa.decrypt opts.privKey ticket = some pt ∧
    Net.stripNul pt = opts.expectedPassword

def unprovedLimit : Nat := LINK_HEADER_SIZE + MAX_LINK_PAYLOAD + ENCRYPTED_TICKET_SIZE

def refusal : List UInt8 :=
  match rsa.toPublicKeyDer (rsa.publicKey opts.privKey) with
  | none => []
  | some der =>
      withHeader (opts.reply der).encodedLen (opts.reply der).encode ++
        LinkResult.encode .permissionDenied

def Conn.beyond : Conn → Bool
  | .linking _ => false
  | .ended => false
  | _ => true

section Link

variable {rsa opts} {ins outs : List UInt8} {last : Script UInt8 NetError AcceptedLink}

theorem Proved.more {got : List UInt8} (proved : Proved rsa opts got) (more : List UInt8) :
    Proved rsa opts (got ++ more) := by
  obtain ⟨before, ticket, after, pt, rfl, near, size, decrypted, same⟩ := proved
  exact ⟨before, ticket, after ++ more, pt, List.append_assoc _ _ _, near, size, decrypted, same⟩

theorem Proved.whole {got : List UInt8} (proved : Proved rsa opts ins) (front : ins <+: got) :
    Proved rsa opts got := by
  obtain ⟨more, rfl⟩ := front
  exact proved.more more

/-- What a handshake has read and written, wherever it stands. -/
structure Guarded (rsa : Rsa PrivateKey PublicKey Coins) (opts : ServerLinkOptions PrivateKey)
    (got sent : List UInt8) : Prop where
  bounded : got.length ≤ unprovedLimit
  reserved : Proved rsa opts got ∨ sent <+: refusal rsa opts

theorem awaitTicket_guarded {read reply : List UInt8} {mess : LinkMess}
    (small : read.length ≤ LINK_HEADER_SIZE + MAX_LINK_PAYLOAD)
    (told : refusal rsa opts = reply ++ LinkResult.encode .permissionDenied)
    (trail : Trail Script.act (Net.awaitTicket rsa opts mess) ins outs last) :
    Guarded rsa opts (read ++ ins) (reply ++ outs) := by
  rcases Script.receive_reached trail with
    ⟨waits, rfl, _open⟩ | ⟨ticket, rest, size, rfl, judged⟩
  · constructor
    · rw [List.length_append]
      unfold unprovedLimit
      omega
    · rw [told, List.append_nil]
      exact Or.inr (List.prefix_append _ _)
  have read_ : rest = [] ∧ (outs = [] ∨ outs = LinkResult.encode (Net.ticketResult rsa opts ticket)) := by
    rcases Script.send_reached judged with ⟨rfl, rfl, _open⟩ | ⟨more, rfl, verdict⟩
    · exact ⟨rfl, Or.inl rfl⟩
    · split at verdict
      · obtain ⟨none, rfl, _last⟩ := Script.done_ended verdict
        exact ⟨none, Or.inr (List.append_nil _)⟩
      · obtain ⟨none, rfl, _last⟩ := Script.done_ended verdict
        exact ⟨none, Or.inr (List.append_nil _)⟩
  obtain ⟨rfl, answered⟩ := read_
  rw [List.append_nil]
  refine ⟨?_, ?_⟩
  · rw [List.length_append, size]
    exact Nat.add_le_add_right small _
  cases answered with
  | inl none =>
      rw [told, none, List.append_nil]
      exact Or.inr (List.prefix_append _ _)
  | inr verdict =>
      cases decrypted : rsa.decrypt opts.privKey ticket with
      | none =>
          rw [verdict, Net.ticketResult, decrypted, told]
          exact Or.inr (List.prefix_refl _)
      | some pt =>
          by_cases same : Net.stripNul pt = opts.expectedPassword
          · exact Or.inl ⟨read, ticket, [], pt, (List.append_nil _).symm, small, size, decrypted, same⟩
          · rw [verdict, Net.ticketResult, decrypted, told]
            dsimp only
            rw [if_neg same]
            exact Or.inr (List.prefix_refl _)

theorem linkServer_guarded (trail : Trail Script.act (linkServer rsa opts) ins outs last) :
    Guarded rsa opts ins outs := by
  have early {got : List UInt8} (small : got.length ≤ LINK_HEADER_SIZE + MAX_LINK_PAYLOAD) :
      Guarded rsa opts got [] :=
    ⟨Nat.le_trans small (Nat.le_add_right _ _), Or.inr List.nil_prefix⟩
  rcases Net.receivePayload_reached trail with
    ⟨small, rfl, _open⟩ | ⟨read, messBuf, rest, announced, rfl, received⟩
  · exact early small
  have small := announced.length_le
  rcases Script.lift_reached received with
    ⟨rfl, rfl, _open⟩ | ⟨mess, _decoded, replied⟩
  · rw [List.append_nil]
    exact early small
  have silent (ended : rest = [] ∧ outs = []) : Guarded rsa opts (read ++ rest) outs := by
    rw [ended.1, ended.2, List.append_nil]
    exact early small
  rw [Net.sendReply] at replied
  cases key : rsa.toPublicKeyDer (rsa.publicKey opts.privKey) with
  | none =>
      rw [key] at replied
      have ended := Script.done_ended replied
      exact silent ⟨ended.1, ended.2.1⟩
  | some der =>
      rw [key] at replied
      dsimp only at replied
      split at replied
      · have ended := Script.done_ended replied
        exact silent ⟨ended.1, ended.2.1⟩
      · rcases Script.send_reached replied with ended | ⟨more, rfl, waited⟩
        · exact silent ⟨ended.1, ended.2.1⟩
        · apply awaitTicket_guarded small _ waited
          rw [refusal, key]

theorem linkServer_proved {accepted : AcceptedLink}
    (trail : Trail Script.act (linkServer rsa opts) ins outs (.done (.ok accepted))) :
    Proved rsa opts ins := by
  obtain ⟨before, ticket, pt, rfl, size, decrypted, same⟩ := Net.linkServer_accepts trail
  have bounded := (linkServer_guarded trail).bounded
  rw [List.length_append, size] at bounded
  exact ⟨before, ticket, [], pt, (List.append_nil _).symm, Nat.le_of_add_le_add_right bounded, size,
    decrypted, same⟩

end Link

/-! ### One task -/

/-- The peer has been through the handshake with the first of its bytes. -/
def Linked (got sent : List UInt8) : Prop :=
  ∃ accepted ins outs, ins <+: got ∧ outs <+: sent ∧
    Trail Script.act (linkServer rsa opts) ins outs (.done (.ok accepted))

/-- A connection stands where its bytes have brought it. -/
def Follows : Conn → List UInt8 → List UInt8 → Prop
  | .linking script, got, sent => Trail Script.act (linkServer rsa opts) got sent script
  | .ended, got, sent =>
      (∃ script, Trail Script.act (linkServer rsa opts) got sent script) ∨ Linked rsa opts got sent
  | _, got, sent => Linked rsa opts got sent

section Task

variable {rsa opts} {live : Finset Nat} {conn : Conn} {io : Io} {got sent : List UInt8}

theorem Linked.more (linked : Linked rsa opts got sent) (took gave : List UInt8) :
    Linked rsa opts (got ++ took) (sent ++ gave) := by
  obtain ⟨accepted, ins, outs, front, front', trail⟩ := linked
  exact ⟨accepted, ins, outs, front.trans (List.prefix_append _ _),
    front'.trans (List.prefix_append _ _), trail⟩

theorem follows_linked (linked : Linked rsa opts got sent)
    (through : ∀ script, conn ≠ .linking script) : Follows rsa opts conn got sent := by
  cases conn with
  | linking script => exact absurd rfl (through script)
  | registering accepted => exact linked
  | booting id channel stage => exact linked
  | idling id channel reading => exact linked
  | attached id channel reading => exact linked
  | ended => exact Or.inr linked

theorem linked_through (accepted : AcceptedLink) (script : Script UInt8 NetError AcceptedLink) :
    Conn.linked live accepted ≠ .linking script := by
  unfold Conn.linked
  split
  · exact Conn.noConfusion
  · split
    · exact Conn.noConfusion
    · exact Conn.noConfusion

theorem step_through (script : Script UInt8 NetError AcceptedLink)
    (through : ∀ script, conn ≠ .linking script) : (conn.step live io).2 ≠ .linking script := by
  cases conn with
  | linking script' => exact absurd rfl (through script')
  | ended => exact Conn.noConfusion
  | registering accepted =>
      cases io with
      | byte byte => exact Conn.noConfusion
      | lost => exact Conn.noConfusion
      | go draw =>
          rw [Conn.step]
          split <;> exact Conn.noConfusion
  | booting id channel stage =>
      unfold Conn.step
      dsimp only
      split <;> exact Conn.noConfusion
  | idling id channel reading =>
      cases io with
      | go draw => exact Conn.noConfusion
      | lost => exact Conn.noConfusion
      | byte byte =>
          rw [Conn.step]
          split <;> exact Conn.noConfusion
  | attached id channel reading =>
      cases io with
      | go draw => exact Conn.noConfusion
      | lost => exact Conn.noConfusion
      | byte byte =>
          rw [Conn.step]
          split <;> exact Conn.noConfusion

private theorem linking_follows {script : Script UInt8 NetError AcceptedLink}
    (trail : Trail Script.act (linkServer rsa opts) got sent script) :
    Follows rsa opts ((Conn.linking script).step live io).2
      (got ++ (Conn.linking script).takes io) (sent ++ (Conn.linking script).gives io) := by
  have stays : Follows rsa opts (.linking script) (got ++ []) (sent ++ []) := by
    rw [List.append_nil, List.append_nil]
    exact trail
  have stops : Follows rsa opts .ended (got ++ []) (sent ++ []) := by
    rw [List.append_nil, List.append_nil]
    exact Or.inl ⟨script, trail⟩
  cases script with
  | read next =>
      cases io with
      | byte byte =>
          have whole := trail.trans (.read rfl (.refl (next byte)))
          exact whole
      | lost => exact stops
      | go draw => exact stays
  | write items next =>
      cases io with
      | byte byte => exact stays
      | lost => exact stops
      | go draw =>
          have wrote : Trail Script.act (.write items next) [] (items ++ []) next :=
            .write rfl (.refl next)
          rw [List.append_nil] at wrote
          exact trail.trans wrote
  | done result =>
      cases io with
      | byte byte => cases result <;> exact stays
      | lost => cases result <;> exact stays
      | go draw =>
          cases result with
          | error reason => exact stops
          | ok accepted =>
              apply follows_linked _ (linked_through accepted)
              exact Linked.more ⟨accepted, got, sent, List.prefix_refl _, List.prefix_refl _, trail⟩ _ _

theorem follows_step (follows : Follows rsa opts conn got sent) :
    Follows rsa opts (conn.step live io).2 (got ++ conn.takes io) (sent ++ conn.gives io) := by
  cases conn with
  | linking script => exact linking_follows follows
  | ended =>
      change Follows rsa opts .ended (got ++ []) (sent ++ [])
      rw [List.append_nil, List.append_nil]
      exact follows
  | registering accepted =>
      exact follows_linked (Linked.more follows _ _) fun script =>
        step_through script fun _script => Conn.noConfusion
  | booting id channel stage =>
      exact follows_linked (Linked.more follows _ _) fun script =>
        step_through script fun _script => Conn.noConfusion
  | idling id channel reading =>
      exact follows_linked (Linked.more follows _ _) fun script =>
        step_through script fun _script => Conn.noConfusion
  | attached id channel reading =>
      exact follows_linked (Linked.more follows _ _) fun script =>
        step_through script fun _script => Conn.noConfusion

theorem Linked.proved (linked : Linked rsa opts got sent) : Proved rsa opts got := by
  obtain ⟨accepted, ins, outs, front, _front, trail⟩ := linked
  exact (linkServer_proved trail).whole front

theorem follows_beyond (follows : Follows rsa opts conn got sent) (beyond : conn.beyond = true) :
    Proved rsa opts got := by
  cases conn with
  | linking script => cases beyond
  | ended => cases beyond
  | registering accepted => exact Linked.proved follows
  | booting id channel stage => exact Linked.proved follows
  | idling id channel reading => exact Linked.proved follows
  | attached id channel reading => exact Linked.proved follows

theorem follows_unproved (follows : Follows rsa opts conn got sent)
    (unproved : ¬ Proved rsa opts got) :
    got.length ≤ unprovedLimit ∧ sent <+: refusal rsa opts := by
  have guarded : Guarded rsa opts got sent := by
    cases conn with
    | linking script => exact linkServer_guarded follows
    | ended =>
        rcases follows with ⟨script, trail⟩ | linked
        · exact linkServer_guarded trail
        · exact absurd linked.proved unproved
    | registering accepted => exact absurd (Linked.proved follows) unproved
    | booting id channel stage => exact absurd (Linked.proved follows) unproved
    | idling id channel reading => exact absurd (Linked.proved follows) unproved
    | attached id channel reading => exact absurd (Linked.proved follows) unproved
  exact ⟨guarded.bounded, guarded.reserved.resolve_left unproved⟩

theorem step_live {id : Nat} (after : id ∈ (conn.step live io).1) :
    id ∈ live ∨ (conn.step live io).2.session = some id := by
  obtain ⟨gone, move, _fails⟩ := @conn_accounted live conn io
  generalize (conn.step live io).1 = live' at move after
  generalize (conn.step live io).2 = next at move
  cases move with
  | keep same => exact Or.inl after
  | take free taken fresh =>
      rcases Finset.mem_insert.mp after with rfl | old
      · exact Or.inr taken
      · exact Or.inl old
  | give had free => exact Or.inl (Finset.mem_of_mem_erase after)
  | lose had free => exact Or.inl after

theorem over_step (done : conn.over = true) : (conn.step live io).2.over = true := by
  cases conn with
  | ended => rfl
  | linking script => cases done
  | registering accepted => cases done
  | booting id channel stage => cases done
  | idling id channel reading => cases done
  | attached id channel reading => cases done

theorem session_beyond {id : Nat} (has : conn.session = some id) : conn.beyond = true := by
  cases conn with
  | booting id channel stage => rfl
  | idling id channel reading => rfl
  | linking script => cases has
  | registering accepted => cases has
  | attached id channel reading => cases has
  | ended => cases has

end Task

/-! ### All runs -/

structure Flow.Sane (flow : Flow) : Prop where
  balanced : Permits.Balanced Served.permit MAX_CONCURRENT_CONNS flow.free flow.tasks
  permitted : ∀ task ∈ flow.tasks, (!task.conn.over) = true → task.permit = true
  follows : ∀ task ∈ flow.tasks, Follows rsa opts task.conn task.got task.sent

/-- The connections and sessions without the limit. -/
def Flow.world (flow : Flow) : World where
  live := flow.live
  tasks := flow.tasks.map Served.conn

/-- What the server does for an event, if it does not turn it away. -/
def Flow.admits (flow : Flow) : FlowEvent → List Event
  | .accept => if flow.free = 0 then [] else [.accept]
  | .turn index io => [.turn index io]
  | .drop _ => []

def admitted : Flow → List FlowEvent → List Event
  | _, [] => []
  | flow, event :: rest => flow.admits event ++ admitted (flow.step rsa opts event) rest

section Runs

variable {rsa opts} {flow : Flow} {event : FlowEvent}

theorem sane_start : (Flow.start).Sane rsa opts where
  balanced := Permits.balanced_start _
  permitted := by simp [Flow.start]
  follows := by simp [Flow.start]

private theorem forall_set {tasks : List Served} {index : Nat} {next : Served} {P : Served → Prop}
    (all : ∀ task ∈ tasks, P task) (new : P next) : ∀ task ∈ tasks.set index next, P task := by
  intro task member
  rcases List.mem_or_eq_of_mem_set member with old | rfl
  · exact all task old
  · exact new

theorem sane_step (sane : flow.Sane rsa opts) : (flow.step rsa opts event).Sane rsa opts := by
  obtain ⟨balanced, permitted, follows⟩ := sane
  obtain ⟨live, tasks, free⟩ := flow
  dsimp only at balanced permitted follows
  cases event with
  | accept =>
      cases free with
      | zero => exact ⟨balanced, permitted, follows⟩
      | succ free =>
          refine ⟨balanced.acquire rfl, ?_, ?_⟩
          · simp only [Flow.step, List.mem_append, List.mem_singleton]
            rintro task (old | rfl)
            · exact permitted task old
            · exact fun _runs => rfl
          · simp only [Flow.step, List.mem_append, List.mem_singleton]
            rintro task (old | rfl)
            · exact follows task old
            · exact .refl _
  | turn index io =>
      cases there : tasks[index]? with
      | none =>
          simp only [Flow.step, there]
          exact ⟨balanced, permitted, follows⟩
      | some task =>
          have member := List.mem_of_getElem? there
          simp only [Flow.step, there]
          refine ⟨balanced.keep there rfl, forall_set permitted ?_, forall_set follows ?_⟩
          · intro runs
            apply permitted task member
            cases done : task.conn.over with
            | false => rfl
            | true =>
                rw [Served.turn, over_step done] at runs
                cases runs
          · exact follows_step (follows task member)
  | drop index =>
      cases there : tasks[index]? with
      | none =>
          simp only [Flow.step, there]
          exact ⟨balanced, permitted, follows⟩
      | some task =>
          have member := List.mem_of_getElem? there
          simp only [Flow.step, there]
          split
          · rename_i drops
            obtain ⟨done, held⟩ := Bool.and_eq_true_iff.mp drops
            refine ⟨balanced.release there held rfl, forall_set permitted ?_,
              forall_set follows (follows task member)⟩
            intro runs
            rw [done] at runs
            cases runs
          · exact ⟨balanced, permitted, follows⟩

theorem serveFlow_snoc (events : List FlowEvent) :
    serveFlow rsa opts (events ++ [event]) = (serveFlow rsa opts events).step rsa opts event :=
  List.foldl_concat _ _ _ _

theorem serveFlow_sane (events : List FlowEvent) : (serveFlow rsa opts events).Sane rsa opts := by
  induction events using List.reverseRecOn with
  | nil => exact sane_start
  | append_singleton events event ih =>
      rw [serveFlow_snoc]
      exact sane_step ih

theorem flow_live {id : Nat} (after : id ∈ (flow.step rsa opts event).live) :
    id ∈ flow.live ∨ ∃ task ∈ (flow.step rsa opts event).tasks, task.conn.session = some id := by
  cases event with
  | accept =>
      unfold Flow.step at after
      dsimp only at after
      split at after
      · exact Or.inl after
      · exact Or.inl after
  | drop index =>
      unfold Flow.step at after
      dsimp only at after
      split at after
      · exact Or.inl after
      · split at after
        · exact Or.inl after
        · exact Or.inl after
  | turn index io =>
      cases there : flow.tasks[index]? with
      | none =>
          simp only [Flow.step, there] at after
          exact Or.inl after
      | some task =>
          simp only [Flow.step, there] at after ⊢
          rcases step_live after with old | given
          · exact Or.inl old
          · have within := (List.getElem?_eq_some_iff.mp there).1
            exact Or.inr ⟨task.turn flow.live io, List.mem_set within _, given⟩

/-- Every live session was given to a peer that had proved itself. -/
theorem serveFlow_live {events : List FlowEvent} {id : Nat}
    (there : id ∈ (serveFlow rsa opts events).live) :
    ∃ earlier, earlier <+: events ∧ ∃ task ∈ (serveFlow rsa opts earlier).tasks,
      task.conn.session = some id ∧ Proved rsa opts task.got := by
  induction events using List.reverseRecOn with
  | nil => cases there
  | append_singleton events event ih =>
      rw [serveFlow_snoc] at there
      rcases flow_live there with old | ⟨task, member, has⟩
      · obtain ⟨earlier, front, given⟩ := ih old
        exact ⟨earlier, front.trans (List.prefix_append _ _), given⟩
      · refine ⟨events ++ [event], List.prefix_refl _, task, ?_, has, ?_⟩
        · rw [serveFlow_snoc]
          exact member
        · have sane := @sane_step _ _ _ _ _ _ event (@serveFlow_sane _ _ _ rsa opts events)
          exact follows_beyond (sane.follows task member) (session_beyond has)

theorem world_step : (flow.step rsa opts event).world =
    Leases.run (serve rsa opts) flow.world (flow.admits event) := by
  obtain ⟨live, tasks, free⟩ := flow
  cases event with
  | accept =>
      cases free with
      | zero => rfl
      | succ free =>
          simp only [Flow.step, Flow.world, Flow.admits, if_neg (Nat.succ_ne_zero free),
            Leases.run, List.foldl_cons, List.foldl_nil, serve, List.map_append, List.map_cons,
            List.map_nil, Served.start]
  | turn index io =>
      simp only [Flow.step, Flow.world, Flow.admits, Leases.run, List.foldl_cons, List.foldl_nil,
        serve, List.getElem?_map]
      cases there : tasks[index]? with
      | none => rfl
      | some task =>
          simp only [Option.map_some, List.map_set]
          rfl
  | drop index =>
      simp only [Flow.step, Flow.world, Flow.admits, Leases.run, List.foldl_nil]
      cases there : tasks[index]? with
      | none => rfl
      | some task =>
          dsimp only
          split
          · obtain ⟨within, rfl⟩ := List.getElem?_eq_some_iff.mp there
            have length : index < (tasks.map Served.conn).length := by
              rw [List.length_map]
              exact within
            have same := List.set_getElem_self length
            rw [List.getElem_map] at same
            rw [List.map_set, same]
          · rfl

theorem world_run (events : List FlowEvent) :
    (events.foldl (Flow.step rsa opts) flow).world =
      Leases.run (serve rsa opts) flow.world (admitted rsa opts flow events) := by
  induction events generalizing flow with
  | nil => rfl
  | cons event rest ih =>
      rw [List.foldl_cons, ih, world_step, admitted]
      exact (List.foldl_append).symm

/-- The session of a main connection is live as long as the connection runs. -/
theorem serveFlow_held {events : List FlowEvent} {task : Served} {id : Nat}
    (member : task ∈ (serveFlow rsa opts events).tasks) (has : task.conn.session = some id) :
    id ∈ (serveFlow rsa opts events).live := by
  have world : (serveFlow rsa opts events).world = Leases.run (serve rsa opts)
      { live := ∅, tasks := [] } (admitted rsa opts Flow.start events) := world_run events
  obtain ⟨lost, sound, _careful⟩ := @Leases.run_sound _ _ _ _ _ _ (@serve_accounts _ _ _ rsa opts) _ _
    (admitted rsa opts Flow.start events) Leases.sound_empty
  rw [← world] at sound
  exact (sound.known id).mpr (List.mem_append_left _ (List.mem_filterMap.mpr
    ⟨task.conn, List.mem_map_of_mem member, has⟩))

end Runs

/-- Whatever its peers do, in every order, the server runs no more connections than it has
permits. A peer is beyond the handshake, and a session is live, only with the password; without
it a peer is read no further than a ticket, and told no more than the key and a refusal. A session
is live as long as its main connection runs. But for the connections that are turned away, the
sessions are those of a server without a limit. -/
theorem server_guarded (events : List FlowEvent) :
    (serveFlow rsa opts events).free + (serveFlow rsa opts events).tasks.countP Served.permit =
        MAX_CONCURRENT_CONNS ∧
      (serveFlow rsa opts events).tasks.countP (fun task => !task.conn.over) ≤
        MAX_CONCURRENT_CONNS ∧
      (∀ task ∈ (serveFlow rsa opts events).tasks,
        (task.conn.beyond = true → Proved rsa opts task.got) ∧
          (¬ Proved rsa opts task.got →
            task.got.length ≤ unprovedLimit ∧ task.sent <+: refusal rsa opts)) ∧
      (∀ id ∈ (serveFlow rsa opts events).live,
        ∃ earlier, earlier <+: events ∧ ∃ task ∈ (serveFlow rsa opts earlier).tasks,
          task.conn.session = some id ∧ Proved rsa opts task.got) ∧
      (∀ task ∈ (serveFlow rsa opts events).tasks, ∀ id, task.conn.session = some id →
        id ∈ (serveFlow rsa opts events).live) ∧
      (serveFlow rsa opts events).world =
        Leases.run (serve rsa opts) idle (admitted rsa opts Flow.start events) := by
  have sane := @serveFlow_sane _ _ _ rsa opts events
  refine ⟨sane.balanced, sane.balanced.running_le sane.permitted, fun task member => ?_,
    fun id live => serveFlow_live live, fun task member id has => serveFlow_held member has,
    world_run events⟩
  have follows := sane.follows task member
  exact ⟨follows_beyond follows, follows_unproved follows⟩

end Capsaicin.Server
