/-
The connections of the command line's server, and the table of the sessions that are live.
-/

import Capsaicin.Library.Leases
import Capsaicin.Net.Link
import Capsaicin.Server.Bootstrap

namespace Capsaicin.Server

open Duplex (Act Script Stage)
open Leases (Careful Move Sound held)
open Net (AcceptedLink Channel NetError Reading Rsa ServerLinkOptions linkServer)
open Proto

def defaultChannels : List ChannelId :=
  [{ channelType := ChannelType.main.toU8, id := 0 },
    { channelType := ChannelType.display.toU8, id := 0 },
    { channelType := ChannelType.inputs.toU8, id := 0 }]

/-- Where `handle_server_conn` stands. -/
inductive Conn where
  | linking (script : Script UInt8 NetError AcceptedLink)
  | registering (accepted : AcceptedLink)
  | booting (sessionId : Nat) (channel : Channel) (stage : ServeStage)
  | idling (sessionId : Nat) (channel : Channel) (reading : Reading)
  | attached (connectionId : UInt32) (channel : Channel) (reading : Reading)
  | ended

/-- The session that a connection was given and has not returned with. -/
def Conn.session : Conn → Option Nat
  | .booting sessionId _ _ => some sessionId
  | .idling sessionId _ _ => some sessionId
  | _ => none

def Conn.attachedTo : Conn → Option UInt32
  | .attached connectionId _ _ => some connectionId
  | _ => none

/-- What lets a connection go on: the peer's next byte, the end of the stream or an error
of it, or nothing but the scheduler. The last comes with a draw of the random source. -/
inductive Io where
  | byte (byte : UInt8)
  | lost
  | go (draw : UInt32)

def isLiveSession (live : Finset Nat) (id : Nat) : Bool := if id = 0 then false else id ∈ live

/-- A turn of `new_session_id`'s loop: the new id, unless the draw is zero or taken. -/
def newSessionId (live : Finset Nat) (draw : UInt32) : Option Nat :=
  if draw.toNat = 0 then none
  else if draw.toNat ∈ live then none
  else some draw.toNat

/-- What follows the handshake. -/
def Conn.linked (live : Finset Nat) (accepted : AcceptedLink) : Conn :=
  match accepted.channelType with
  | .main => .registering accepted
  | _ =>
      if isLiveSession live accepted.connectionId.toNat then
        .attached accepted.connectionId accepted.channel .start
      else .ended

/-- A step of `handle_server_conn`. Where a connection waits for something else, nothing
happens. -/
def Conn.step (live : Finset Nat) : Conn → Io → Finset Nat × Conn
  | .linking script, io =>
      match script.act, io with
      | .read next, .byte byte => (live, .linking (next byte))
      | .read _, .lost => (live, .ended)
      | .write _ next, .go _ => (live, .linking next)
      | .write _ _, .lost => (live, .ended)
      | .done (.ok accepted), .go _ => (live, .linked live accepted)
      | .done (.error _), .go _ => (live, .ended)
      | _, _ => (live, .linking script)
  | .registering accepted, .go draw =>
      match newSessionId live draw with
      | some id => (insert id live, .booting id accepted.channel (serveStart accepted.channel id none))
      | none => (live, .registering accepted)
  | .booting id channel stage, io =>
      match serveAct channel defaultChannels stage, io with
      | .read next, .byte byte => (live, .booting id channel (next byte))
      | .read _, .lost => (live, .ended)
      | .write _ next, .go _ => (live, .booting id channel next)
      | .write _ _, .lost => (live, .ended)
      | .done (.ok ()), .go _ => (live, .idling id channel .start)
      | .done (.error _), .go _ => (live, .ended)
      | _, _ => (live, .booting id channel stage)
  | .idling id channel reading, .byte byte =>
      match channel.reader.feed reading byte with
      | .more next => (live, .idling id channel next)
      | .done _ => (live, .idling id channel .start)
      | .failed => (live.erase id, .ended)
  | .idling id _ _, .lost => (live.erase id, .ended)
  | .attached id channel reading, .byte byte =>
      match channel.reader.feed reading byte with
      | .more next => (live, .attached id channel next)
      | .done _ => (live, .attached id channel .start)
      | .failed => (live, .ended)
  | .attached _ _ _, .lost => (live, .ended)
  | conn, _ => (live, conn)

/-- The sessions and all connections that were ever accepted, whatever their number. -/
abbrev World := Leases.Table Conn Nat

inductive Event where
  | accept
  | turn (index : Nat) (io : Io)

variable {PrivateKey PublicKey Coins : Type} (rsa : Rsa PrivateKey PublicKey Coins)
  (opts : ServerLinkOptions PrivateKey)

def serve (world : World) : Event → World
  | .accept => { world with tasks := world.tasks ++ [.linking (linkServer rsa opts)] }
  | .turn index io =>
      match world.tasks[index]? with
      | none => world
      | some conn =>
          { live := (conn.step world.live io).1
            tasks := world.tasks.set index (conn.step world.live io).2 }

/-- A bootstrap ends with an error. -/
def Conn.failsBootstrap : Conn → Io → Bool
  | .booting _ channel stage, io =>
      match serveAct channel defaultChannels stage, io with
      | .read _, .lost => true
      | .write _ _, .lost => true
      | .done (.error _), .go _ => true
      | _, _ => false
  | _, _ => false

def failsBootstrap (world : World) : Event → Bool
  | .accept => false
  | .turn index io =>
      match world.tasks[index]? with
      | none => false
      | some conn => conn.failsBootstrap io

/-! ### One step -/

section Step

variable {live : Finset Nat} {io : Io}

theorem newSessionId_fresh {draw : UInt32} {id : Nat} (drawn : newSessionId live draw = some id) :
    id ∉ live := by
  unfold newSessionId at drawn
  split at drawn
  · cases drawn
  · split at drawn
    · cases drawn
    · rename_i fresh
      cases drawn
      exact fresh

theorem linked_session (accepted : AcceptedLink) : (Conn.linked live accepted).session = none := by
  unfold Conn.linked
  split
  · rfl
  · split
    · rfl
    · rfl

theorem linked_attached {accepted : AcceptedLink} {connectionId : UInt32}
    (after : (Conn.linked live accepted).attachedTo = some connectionId) :
    connectionId.toNat ∈ live := by
  unfold Conn.linked at after
  split at after
  · cases after
  · split at after
    · rename_i honoured
      cases after
      unfold isLiveSession at honoured
      split at honoured
      · cases honoured
      · exact of_decide_eq_true honoured
    · cases after

/-- What a step does to the table: a session is lost where a bootstrap fails, and only
there. -/
def Accounted (live : Finset Nat) (conn : Conn) (io : Io) : Prop :=
  ∃ gone, Move Conn.session live conn (conn.step live io).1 (conn.step live io).2 gone ∧
    (gone = none ↔ conn.failsBootstrap io = false)

private theorem accounted_keep {conn : Conn} (same : (conn.step live io).1 = live)
    (session : (conn.step live io).2.session = conn.session)
    (well : conn.failsBootstrap io = false) : Accounted live conn io := by
  refine ⟨none, ?_, iff_of_true rfl well⟩
  rw [same]
  exact .keep session

private theorem linking_accounted (script : Script UInt8 NetError AcceptedLink) :
    Accounted live (.linking script) io := by
  apply accounted_keep
  · unfold Conn.step
    dsimp only
    split <;> rfl
  · unfold Conn.step
    dsimp only
    split
    · rfl
    · rfl
    · rfl
    · rfl
    · exact linked_session _
    · rfl
    · rfl
  · rfl

private theorem registering_accounted (accepted : AcceptedLink) :
    Accounted live (.registering accepted) io := by
  cases io with
  | byte byte => exact accounted_keep rfl rfl rfl
  | lost => exact accounted_keep rfl rfl rfl
  | go draw =>
      cases drawn : newSessionId live draw with
      | none =>
          apply accounted_keep
          · rw [Conn.step, drawn]
          · rw [Conn.step, drawn]
          · rfl
      | some id =>
          refine ⟨none, ?_, iff_of_true rfl rfl⟩
          rw [Conn.step, drawn]
          exact .take rfl rfl (newSessionId_fresh drawn)

private theorem booting_accounted (id : Nat) (channel : Channel) (stage : ServeStage) :
    Accounted live (.booting id channel stage) io := by
  unfold Accounted Conn.step Conn.failsBootstrap
  dsimp only
  cases serveAct channel defaultChannels stage with
  | read next =>
      cases io with
      | byte byte => exact ⟨none, .keep rfl, iff_of_true rfl rfl⟩
      | lost => exact ⟨some id, .lose rfl rfl, by simp⟩
      | go draw => exact ⟨none, .keep rfl, iff_of_true rfl rfl⟩
  | write items next =>
      cases io with
      | byte byte => exact ⟨none, .keep rfl, iff_of_true rfl rfl⟩
      | lost => exact ⟨some id, .lose rfl rfl, by simp⟩
      | go draw => exact ⟨none, .keep rfl, iff_of_true rfl rfl⟩
  | done result =>
      cases result with
      | ok done =>
          cases io with
          | byte byte => exact ⟨none, .keep rfl, iff_of_true rfl rfl⟩
          | lost => exact ⟨none, .keep rfl, iff_of_true rfl rfl⟩
          | go draw => exact ⟨none, .keep rfl, iff_of_true rfl rfl⟩
      | error reason =>
          cases io with
          | byte byte => exact ⟨none, .keep rfl, iff_of_true rfl rfl⟩
          | lost => exact ⟨none, .keep rfl, iff_of_true rfl rfl⟩
          | go draw => exact ⟨some id, .lose rfl rfl, by simp⟩

private theorem idling_accounted (id : Nat) (channel : Channel) (reading : Reading) :
    Accounted live (.idling id channel reading) io := by
  cases io with
  | go draw => exact accounted_keep rfl rfl rfl
  | lost => exact ⟨none, .give rfl rfl, iff_of_true rfl rfl⟩
  | byte byte =>
      cases fed : channel.reader.feed reading byte with
      | more next =>
          apply accounted_keep
          · rw [Conn.step, fed]
          · rw [Conn.step, fed]
            rfl
          · rfl
      | done message =>
          apply accounted_keep
          · rw [Conn.step, fed]
          · rw [Conn.step, fed]
            rfl
          · rfl
      | failed =>
          refine ⟨none, ?_, iff_of_true rfl rfl⟩
          rw [Conn.step, fed]
          exact .give rfl rfl

private theorem attached_accounted (id : UInt32) (channel : Channel) (reading : Reading) :
    Accounted live (.attached id channel reading) io := by
  cases io with
  | go draw => exact accounted_keep rfl rfl rfl
  | lost => exact accounted_keep rfl rfl rfl
  | byte byte =>
      apply accounted_keep
      · unfold Conn.step
        dsimp only
        split <;> rfl
      · unfold Conn.step
        dsimp only
        split <;> rfl
      · rfl

theorem conn_accounted (conn : Conn) (io : Io) : Accounted live conn io := by
  cases conn with
  | linking script => exact linking_accounted script
  | registering accepted => exact registering_accounted accepted
  | booting id channel stage => exact booting_accounted id channel stage
  | idling id channel reading => exact idling_accounted id channel reading
  | attached id channel reading => exact attached_accounted id channel reading
  | ended => exact accounted_keep rfl rfl rfl

theorem attached_live {conn : Conn} {connectionId : UInt32} (before : conn.attachedTo = none)
    (after : (conn.step live io).2.attachedTo = some connectionId) :
    connectionId.toNat ∈ live := by
  cases conn with
  | attached id channel reading => cases before
  | ended => cases after
  | registering accepted =>
      cases io with
      | byte byte => cases after
      | lost => cases after
      | go draw =>
          rw [Conn.step] at after
          split at after
          · cases after
          · cases after
  | idling id channel reading =>
      cases io with
      | go draw => cases after
      | lost => cases after
      | byte byte =>
          rw [Conn.step] at after
          split at after
          · cases after
          · cases after
          · cases after
  | booting id channel stage =>
      unfold Conn.step at after
      dsimp only at after
      split at after
      all_goals cases after
  | linking script =>
      unfold Conn.step at after
      dsimp only at after
      split at after
      · cases after
      · cases after
      · cases after
      · cases after
      · exact linked_attached after
      · cases after
      · cases after

end Step

/-! ### All runs -/

section Runs

variable {PrivateKey PublicKey Coins : Type} {rsa : Rsa PrivateKey PublicKey Coins}
  {opts : ServerLinkOptions PrivateKey}

theorem serve_accounts : Leases.Accounts (serve rsa opts) failsBootstrap Conn.session := by
  intro world lost event sound
  cases event with
  | accept => exact ⟨[], Leases.sound_enter sound rfl, iff_of_true rfl rfl⟩
  | turn index io =>
      cases at_ : world.tasks[index]? with
      | none =>
          simp only [serve, failsBootstrap, at_]
          exact ⟨[], sound, iff_of_true rfl trivial⟩
      | some conn =>
          simp only [serve, failsBootstrap, at_]
          obtain ⟨within, here⟩ := List.getElem?_eq_some_iff.mp at_
          obtain ⟨before, behind, whole, _length, changed⟩ :=
            @List.exists_of_set _ _ (conn.step world.live io).2 world.tasks within
          obtain ⟨gone, move, fails⟩ := @conn_accounted world.live conn io
          rw [here] at whole
          have split : Sound Conn.session
              { live := world.live, tasks := before ++ conn :: behind } lost := whole ▸ sound
          refine ⟨gone.toList, changed ▸ Leases.sound_move split move, ?_⟩
          rw [← fails]
          exact Option.toList_eq_nil_iff

def sessions (world : World) : List Nat := held Conn.session world.tasks

def idle : World := { live := ∅, tasks := [] }

end Runs

/-- The table holds the sessions of the running main connections just as long as no
bootstrap has failed. Up to then, a connection is attached only to one of them. -/
theorem sessions_live_iff {PrivateKey PublicKey Coins : Type}
    (rsa : Rsa PrivateKey PublicKey Coins) (opts : ServerLinkOptions PrivateKey)
    (events : List Event) :
    ((∀ id, id ∈ (Leases.run (serve rsa opts) idle events).live ↔
          id ∈ sessions (Leases.run (serve rsa opts) idle events)) ↔
        Careful (serve rsa opts) failsBootstrap idle events) ∧
      (Careful (serve rsa opts) failsBootstrap idle events →
        ∀ (index : Nat) (conn : Conn) (io : Io) (connectionId : UInt32),
          (Leases.run (serve rsa opts) idle events).tasks[index]? = some conn →
            conn.attachedTo = none →
              (conn.step (Leases.run (serve rsa opts) idle events).live io).2.attachedTo =
                  some connectionId →
                connectionId.toNat ∈ sessions (Leases.run (serve rsa opts) idle events)) := by
  have exact_ := @Leases.run_exact_iff _ _ _ _ _ _ (@serve_accounts _ _ _ rsa opts) events
  refine ⟨exact_, fun careful index conn io connectionId _there before after => ?_⟩
  exact (exact_.mpr careful connectionId.toNat).mp (attached_live before after)

/-! ### A client that stops -/

def linkEvents (index : Nat) (client : Net.LinkOptions) : List Event :=
  let ticket : List UInt8 := [3, 115, 51, 0] ++ List.replicate 124 0
  (Net.withHeader client.mess.encodedLen client.mess.encode).map (.turn index ∘ .byte) ++
    [.turn index (.go 0)] ++ ticket.map (.turn index ∘ .byte) ++ [.turn index (.go 0)]

def client (channelType : ChannelType) (connectionId : UInt32) : Net.LinkOptions where
  connectionId := connectionId
  channelType := channelType
  channelId := 0
  password := [115, 51]
  commonCaps := ⟨[]⟩
  channelCaps := ⟨[]⟩

def mainLinked : List Event :=
  [.accept] ++ linkEvents 0 (client .main 0) ++ [.turn 0 (.go 0), .turn 0 (.go 7)]

def mainLost : List Event := mainLinked ++ [.turn 0 .lost]

private theorem not_exact {world : World} {id : Nat} (live : id ∈ world.live)
    (nobody : sessions world = []) : ¬ ∀ id, id ∈ world.live ↔ id ∈ sessions world := by
  intro right
  have impossible := (right id).mp live
  rw [nobody] at impossible
  cases impossible

theorem session_leaked :
    ¬ ∀ id, id ∈ (Leases.run (serve Net.plainRsa Net.sampleServer) idle mainLost).live ↔
      id ∈ sessions (Leases.run (serve Net.plainRsa Net.sampleServer) idle mainLost) := by
  apply @not_exact _ 7
  · decide +kernel
  · decide +kernel

def displayLinked : List Event := mainLinked ++ [.accept] ++ linkEvents 1 (client .display 7)

theorem sessions_live_display :
    7 ∈ sessions (Leases.run (serve Net.plainRsa Net.sampleServer) idle displayLinked) := by
  have careful : Careful (serve Net.plainRsa Net.sampleServer) failsBootstrap idle displayLinked := by
    decide +kernel
  have attaches : ((Leases.run (serve Net.plainRsa Net.sampleServer) idle displayLinked).tasks[1]?.any
      fun conn => conn.attachedTo = none ∧
        (conn.step (Leases.run (serve Net.plainRsa Net.sampleServer) idle displayLinked).live
          (.go 0)).2.attachedTo = some 7) = true := by
    decide +kernel
  obtain ⟨conn, there, both⟩ := (Option.any_eq_true _ _).mp attaches
  obtain ⟨before, after⟩ := of_decide_eq_true both
  exact (sessions_live_iff Net.plainRsa Net.sampleServer displayLinked).2 careful 1 conn (.go 0) 7
    there before after

end Capsaicin.Server
