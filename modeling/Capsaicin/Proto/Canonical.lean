/-
The bodies of fixed layout. Each is accepted as a value exactly when it begins with the
encoding of that value, whatever stands behind.
-/

import Capsaicin.Proto.Cursor
import Capsaicin.Proto.Grammar
import Capsaicin.Proto.Inputs

namespace Capsaicin.Proto

open Bytes (ofLe toLe)
open Codec (Canonical)

/-! ### Fields -/

theorem Reader.le_canonical (count : Nat) :
    Canonical (do let bytes ← Reader.take count; pure (ofLe bytes) : Reader Nat) (toLe count)
      (· < 256 ^ count) := by
  intro buf value rest
  constructor
  · intro ran
    rcases Reader.le_taken count ran with ⟨split, fits⟩
    exact ⟨fits, split⟩
  · rintro ⟨fits, rfl⟩
    exact (Reader.le_exact fits).whole rest

theorem Reader.u8_canonical : Canonical Reader.u8 writeU8 (· < 256 ^ 1) := Reader.le_canonical 1

theorem Reader.u16_canonical : Canonical Reader.u16 writeU16 (· < 256 ^ 2) :=
  Reader.le_canonical 2

theorem Reader.u32_canonical : Canonical Reader.u32 writeU32 (· < 256 ^ 4) :=
  Reader.le_canonical 4

theorem Reader.u64_canonical : Canonical Reader.u64 writeU64 (· < 256 ^ 8) :=
  Reader.le_canonical 8


def FitsSigned (bits : Nat) (value : Int) : Prop :=
  -2 ^ (bits - 1) ≤ value ∧ value < 2 ^ (bits - 1)

theorem Reader.signed_canonical {first : Reader Nat} {write : Nat → List UInt8} {bits size : Nat}
    (positive : 0 < bits) (whole : size = 2 ^ bits) (here : Canonical first write (· < size)) :
    Canonical (first >>= fun value => pure (Reader.signed bits value))
      (fun value => write (unsigned bits value)) (FitsSigned bits) := by
  have double : (2 : Int) ^ bits = 2 * 2 ^ (bits - 1) := by
    rw [← pow_succ', Nat.sub_add_cancel positive]
  have half : ((2 ^ (bits - 1) : Nat) : Int) = 2 ^ (bits - 1) := by simp
  have full : ((2 ^ bits : Nat) : Int) = 2 ^ bits := by simp
  have some : (0 : Int) < 2 ^ (bits - 1) := Int.pow_pos (by decide)
  apply here.map
  · intro value fits
    unfold FitsSigned Reader.signed unsigned
    split
    · rw [Int.emod_eq_of_lt (by omega) (by omega)]
      omega
    · have same : ((value : Int) - 2 ^ bits) % 2 ^ bits = value := by
        rw [Int.sub_emod_right, Int.emod_eq_of_lt (by omega) (by omega)]
      rw [same]
      omega
  · intro value fits
    rcases fits with ⟨low, high⟩
    unfold Reader.signed unsigned
    by_cases negative : value < 0
    · have same : value % 2 ^ bits = value + 2 ^ bits := by
        rw [← Int.add_emod_right, Int.emod_eq_of_lt (by omega) (by omega)]
      rw [same]
      split
      · omega
      · omega
    · rw [Int.emod_eq_of_lt (by omega) (by omega)]
      split
      · omega
      · omega

theorem Reader.i32_canonical : Canonical Reader.i32 writeI32 (FitsSigned 32) :=
  Reader.signed_canonical (by decide) rfl Reader.u32_canonical

theorem Reader.i16_canonical : Canonical Reader.i16 writeI16 (FitsSigned 16) :=
  Reader.signed_canonical (by decide) rfl Reader.u16_canonical

theorem Reader.decode_behind {α : Type} {reader : Reader α} {bytes : List UInt8} {value : α}
    (exact : Codec.Exact reader bytes value) (behind : List UInt8) :
    reader.decode (bytes ++ behind) = .ok value :=
  Reader.decode_ok (exact.whole behind)

/-! ### Bodies -/

def SetAck.Fits (ack : SetAck) : Prop := ack.generation < 256 ^ 4 ∧ ack.window < 256 ^ 4

theorem SetAck.canonical : Canonical SetAck.reader SetAck.encode SetAck.Fits := by
  have fields := Canonical.start <|
    Canonical.field SetAck.generation Reader.u32_canonical fun generation =>
    Canonical.field SetAck.window Reader.u32_canonical fun window =>
    @Canonical.done ProtoError _ _ _ ⟨generation, window⟩ fun ack => by
      cases ack
      simp
  exact fields.congr (by simp [SetAck.encode]) fun ack => by simp [SetAck.Fits]

def AckSync.Fits (sync : AckSync) : Prop := sync.generation < 256 ^ 4

theorem AckSync.canonical : Canonical AckSync.reader AckSync.encode AckSync.Fits := by
  have fields := Canonical.start <|
    Canonical.field AckSync.generation Reader.u32_canonical fun generation =>
    @Canonical.done ProtoError _ _ _ ⟨generation⟩ fun sync => by
      cases sync
      simp
  exact fields.congr (by simp [AckSync.encode]) fun sync => by simp [AckSync.Fits]

def Pong.Fits (pong : Pong) : Prop := pong.id < 256 ^ 4 ∧ pong.timestamp < 256 ^ 8

theorem Pong.canonical : Canonical Pong.reader Pong.encode Pong.Fits := by
  have fields := Canonical.start <|
    Canonical.field Pong.id Reader.u32_canonical fun id =>
    Canonical.field Pong.timestamp Reader.u64_canonical fun timestamp =>
    @Canonical.done ProtoError _ _ _ ⟨id, timestamp⟩ fun pong => by
      cases pong
      simp
  exact fields.congr (by simp [Pong.encode]) fun pong => by simp [Pong.Fits]

def Disconnecting.Fits (message : Disconnecting) : Prop :=
  message.timeStamp < 256 ^ 8 ∧ message.reason < 256 ^ 4

theorem Disconnecting.canonical :
    Canonical Disconnecting.reader Disconnecting.encode Disconnecting.Fits := by
  have fields := Canonical.start <|
    Canonical.field Disconnecting.timeStamp Reader.u64_canonical fun timeStamp =>
    Canonical.field Disconnecting.reason Reader.u32_canonical fun reason =>
    @Canonical.done ProtoError _ _ _ ⟨timeStamp, reason⟩ fun message => by
      cases message
      simp
  exact fields.congr (by simp [Disconnecting.encode]) fun message => by simp [Disconnecting.Fits]

theorem Init.canonical : Canonical Init.reader Init.encode Init.Fits := by
  have fields := Canonical.start <|
    Canonical.field Init.sessionId Reader.u32_canonical fun sessionId =>
    Canonical.field Init.displayChannelsHint Reader.u32_canonical fun displayChannelsHint =>
    Canonical.field Init.supportedMouseModes Reader.u32_canonical fun supportedMouseModes =>
    Canonical.field Init.currentMouseMode Reader.u32_canonical fun currentMouseMode =>
    Canonical.field Init.agentConnected Reader.u32_canonical fun agentConnected =>
    Canonical.field Init.agentTokens Reader.u32_canonical fun agentTokens =>
    Canonical.field Init.multiMediaTime Reader.u32_canonical fun multiMediaTime =>
    Canonical.field Init.ramHint Reader.u32_canonical fun ramHint =>
    @Canonical.done ProtoError _ _ _
      ⟨sessionId, displayChannelsHint, supportedMouseModes, currentMouseMode, agentConnected,
        agentTokens, multiMediaTime, ramHint⟩ fun init => by
      cases init
      simp [and_assoc]
  apply fields.congr
  · simp [Init.encode]
  · intro init
    constructor
    · intro fits
      exact ⟨fits.sessionId, fits.displayChannelsHint, fits.supportedMouseModes,
        fits.currentMouseMode, fits.agentConnected, fits.agentTokens, fits.multiMediaTime,
        fits.ramHint, trivial⟩
    · rintro ⟨sessionId, hint, supported, current, connected, tokens, time, ramHint, _all⟩
      exact ⟨sessionId, hint, supported, current, connected, tokens, time, ramHint⟩

def ClientInfo.Fits (info : ClientInfo) : Prop := info.cacheSize < 256 ^ 8

theorem ClientInfo.canonical : Canonical ClientInfo.reader ClientInfo.encode ClientInfo.Fits := by
  have fields := Canonical.start <|
    Canonical.field ClientInfo.cacheSize Reader.u64_canonical fun cacheSize =>
    @Canonical.done ProtoError _ _ _ ⟨cacheSize⟩ fun info => by
      cases info
      simp
  exact fields.congr (by simp [ClientInfo.encode]) fun info => by simp [ClientInfo.Fits]

def MouseModeBody.Fits (body : MouseModeBody) : Prop :=
  body.supportedModes < 256 ^ 4 ∧ body.currentMode < 256 ^ 4

theorem MouseModeBody.canonical :
    Canonical MouseModeBody.reader MouseModeBody.encode MouseModeBody.Fits := by
  have fields := Canonical.start <|
    Canonical.field MouseModeBody.supportedModes Reader.u32_canonical fun supportedModes =>
    Canonical.field MouseModeBody.currentMode Reader.u32_canonical fun currentMode =>
    @Canonical.done ProtoError _ _ _ ⟨supportedModes, currentMode⟩ fun body => by
      cases body
      simp
  exact fields.congr (by simp [MouseModeBody.encode]) fun body => by simp [MouseModeBody.Fits]

def MouseModeRequest.Fits (request : MouseModeRequest) : Prop := request.mode < 256 ^ 4

theorem MouseModeRequest.canonical :
    Canonical MouseModeRequest.reader MouseModeRequest.encode MouseModeRequest.Fits := by
  have fields := Canonical.start <|
    Canonical.field MouseModeRequest.mode Reader.u32_canonical fun mode =>
    @Canonical.done ProtoError _ _ _ ⟨mode⟩ fun request => by
      cases request
      simp
  exact fields.congr (by simp [MouseModeRequest.encode]) fun request => by simp [MouseModeRequest.Fits]

def MultiMediaTime.Fits (message : MultiMediaTime) : Prop := message.time < 256 ^ 4

theorem MultiMediaTime.canonical :
    Canonical MultiMediaTime.reader MultiMediaTime.encode MultiMediaTime.Fits := by
  have fields := Canonical.start <|
    Canonical.field MultiMediaTime.time Reader.u32_canonical fun time =>
    @Canonical.done ProtoError _ _ _ ⟨time⟩ fun message => by
      cases message
      simp
  exact fields.congr (by simp [MultiMediaTime.encode]) fun message => by simp [MultiMediaTime.Fits]

def Mode.Fits (mode : Mode) : Prop :=
  mode.xRes < 256 ^ 4 ∧ mode.yRes < 256 ^ 4 ∧ mode.bits < 256 ^ 4

theorem Mode.canonical : Canonical Mode.reader Mode.encode Mode.Fits := by
  have fields := Canonical.start <|
    Canonical.field Mode.xRes Reader.u32_canonical fun xRes =>
    Canonical.field Mode.yRes Reader.u32_canonical fun yRes =>
    Canonical.field Mode.bits Reader.u32_canonical fun bits =>
    @Canonical.done ProtoError _ _ _ ⟨xRes, yRes, bits⟩ fun mode => by
      cases mode
      simp [and_assoc]
  exact fields.congr (by simp [Mode.encode]) fun mode => by simp [Mode.Fits]

def SurfaceCreate.Fits (create : SurfaceCreate) : Prop :=
  create.surfaceId < 256 ^ 4 ∧ create.width < 256 ^ 4 ∧ create.height < 256 ^ 4 ∧
    create.format < 256 ^ 4 ∧ create.flags < 256 ^ 4

theorem SurfaceCreate.canonical :
    Canonical SurfaceCreate.reader SurfaceCreate.encode SurfaceCreate.Fits := by
  have fields := Canonical.start <|
    Canonical.field SurfaceCreate.surfaceId Reader.u32_canonical fun surfaceId =>
    Canonical.field SurfaceCreate.width Reader.u32_canonical fun width =>
    Canonical.field SurfaceCreate.height Reader.u32_canonical fun height =>
    Canonical.field SurfaceCreate.format Reader.u32_canonical fun format =>
    Canonical.field SurfaceCreate.flags Reader.u32_canonical fun flags =>
    @Canonical.done ProtoError _ _ _ ⟨surfaceId, width, height, format, flags⟩ fun create => by
      cases create
      simp [and_assoc]
  exact fields.congr (by simp [SurfaceCreate.encode]) fun create => by simp [SurfaceCreate.Fits]

def SurfaceDestroy.Fits (destroy : SurfaceDestroy) : Prop := destroy.surfaceId < 256 ^ 4

theorem SurfaceDestroy.canonical :
    Canonical SurfaceDestroy.reader SurfaceDestroy.encode SurfaceDestroy.Fits := by
  have fields := Canonical.start <|
    Canonical.field SurfaceDestroy.surfaceId Reader.u32_canonical fun surfaceId =>
    @Canonical.done ProtoError _ _ _ ⟨surfaceId⟩ fun destroy => by
      cases destroy
      simp
  exact fields.congr (by simp [SurfaceDestroy.encode]) fun destroy => by simp [SurfaceDestroy.Fits]

def StreamDestroy.Fits (destroy : StreamDestroy) : Prop := destroy.streamId < 256 ^ 4

theorem StreamDestroy.canonical :
    Canonical StreamDestroy.reader StreamDestroy.encode StreamDestroy.Fits := by
  have fields := Canonical.start <|
    Canonical.field StreamDestroy.streamId Reader.u32_canonical fun streamId =>
    @Canonical.done ProtoError _ _ _ ⟨streamId⟩ fun destroy => by
      cases destroy
      simp
  exact fields.congr (by simp [StreamDestroy.encode]) fun destroy => by simp [StreamDestroy.Fits]

def KeyCode.Fits (key : KeyCode) : Prop := key.code < 256 ^ 4

theorem KeyCode.canonical : Canonical KeyCode.reader KeyCode.encode KeyCode.Fits := by
  have fields := Canonical.start <|
    Canonical.field KeyCode.code Reader.u32_canonical fun code =>
    @Canonical.done ProtoError _ _ _ ⟨code⟩ fun key => by
      cases key
      simp
  exact fields.congr (by simp [KeyCode.encode]) fun key => by simp [KeyCode.Fits]

def KeyModifiers.Fits (modifiers : KeyModifiers) : Prop := modifiers.keyboardModifiers < 256 ^ 4

theorem KeyModifiers.canonical : Canonical KeyModifiers.reader KeyModifiers.encode KeyModifiers.Fits := by
  have fields := Canonical.start <|
    Canonical.field KeyModifiers.keyboardModifiers Reader.u32_canonical fun keyboardModifiers =>
    @Canonical.done ProtoError _ _ _ ⟨keyboardModifiers⟩ fun modifiers => by
      cases modifiers
      simp
  exact fields.congr (by simp [KeyModifiers.encode]) fun modifiers => by simp [KeyModifiers.Fits]

def MouseMotion.Fits (motion : MouseMotion) : Prop :=
  FitsSigned 32 motion.dx ∧ FitsSigned 32 motion.dy ∧ motion.buttonsState < 256 ^ 4

theorem MouseMotion.canonical : Canonical MouseMotion.reader MouseMotion.encode MouseMotion.Fits := by
  have fields := Canonical.start <|
    Canonical.field MouseMotion.dx Reader.i32_canonical fun dx =>
    Canonical.field MouseMotion.dy Reader.i32_canonical fun dy =>
    Canonical.field MouseMotion.buttonsState Reader.u32_canonical fun buttonsState =>
    @Canonical.done ProtoError _ _ _ ⟨dx, dy, buttonsState⟩ fun motion => by
      cases motion
      simp [and_assoc]
  exact fields.congr (by simp [MouseMotion.encode]) fun motion => by simp [MouseMotion.Fits]

def MousePosition.Fits (position : MousePosition) : Prop :=
  position.x < 256 ^ 4 ∧ position.y < 256 ^ 4 ∧ position.buttonsState < 256 ^ 4 ∧
    position.displayId < 256 ^ 1

theorem MousePosition.canonical :
    Canonical MousePosition.reader MousePosition.encode MousePosition.Fits := by
  have fields := Canonical.start <|
    Canonical.field MousePosition.x Reader.u32_canonical fun x =>
    Canonical.field MousePosition.y Reader.u32_canonical fun y =>
    Canonical.field MousePosition.buttonsState Reader.u32_canonical fun buttonsState =>
    Canonical.field MousePosition.displayId Reader.u8_canonical fun displayId =>
    @Canonical.done ProtoError _ _ _ ⟨x, y, buttonsState, displayId⟩ fun position => by
      cases position
      simp [and_assoc]
  exact fields.congr (by simp [MousePosition.encode]) fun position => by simp [MousePosition.Fits]

def MouseButton.Fits (press : MouseButton) : Prop :=
  press.button < 256 ^ 1 ∧ press.buttonsState < 256 ^ 4

theorem MouseButton.canonical : Canonical MouseButton.reader MouseButton.encode MouseButton.Fits := by
  have fields := Canonical.start <|
    Canonical.field MouseButton.button Reader.u8_canonical fun button =>
    Canonical.field MouseButton.buttonsState Reader.u32_canonical fun buttonsState =>
    @Canonical.done ProtoError _ _ _ ⟨button, buttonsState⟩ fun press => by
      cases press
      simp
  exact fields.congr (by simp [MouseButton.encode]) fun press => by simp [MouseButton.Fits]

def CursorHeader.Fits (header : CursorHeader) : Prop :=
  header.unique < 256 ^ 8 ∧ header.kind < 256 ^ 2 ∧ header.width < 256 ^ 2 ∧
    header.height < 256 ^ 2 ∧ header.hotSpotX < 256 ^ 2 ∧ header.hotSpotY < 256 ^ 2

theorem CursorHeader.canonical : Canonical CursorHeader.reader CursorHeader.encode CursorHeader.Fits := by
  have fields := Canonical.start <|
    Canonical.field CursorHeader.unique Reader.u64_canonical fun unique =>
    Canonical.field CursorHeader.kind Reader.u16_canonical fun kind =>
    Canonical.field CursorHeader.width Reader.u16_canonical fun width =>
    Canonical.field CursorHeader.height Reader.u16_canonical fun height =>
    Canonical.field CursorHeader.hotSpotX Reader.u16_canonical fun hotSpotX =>
    Canonical.field CursorHeader.hotSpotY Reader.u16_canonical fun hotSpotY =>
    @Canonical.done ProtoError _ _ _ ⟨unique, kind, width, height, hotSpotX, hotSpotY⟩ fun header => by
      cases header
      simp [and_assoc]
  exact fields.congr (by simp [CursorHeader.encode]) fun header => by simp [CursorHeader.Fits]

def CursorMove.Fits (move : CursorMove) : Prop :=
  FitsSigned 16 move.positionX ∧ FitsSigned 16 move.positionY

theorem CursorMove.canonical :
    Canonical CursorMove.reader (fun move => writeI16 move.positionX ++ writeI16 move.positionY)
      CursorMove.Fits := by
  have fields := Canonical.start <|
    Canonical.field CursorMove.positionX Reader.i16_canonical fun positionX =>
    Canonical.field CursorMove.positionY Reader.i16_canonical fun positionY =>
    @Canonical.done ProtoError _ _ _ ⟨positionX, positionY⟩ fun move => by
      cases move
      simp
  exact fields.congr (by simp) fun move => by simp [CursorMove.Fits]

def CursorInvalOne.Fits (message : CursorInvalOne) : Prop := message.unique < 256 ^ 8

theorem CursorInvalOne.canonical :
    Canonical CursorInvalOne.reader (fun message => writeU64 message.unique)
      CursorInvalOne.Fits := by
  have fields := Canonical.start <|
    Canonical.field CursorInvalOne.unique Reader.u64_canonical fun unique =>
    @Canonical.done ProtoError _ _ _ ⟨unique⟩ fun message => by
      cases message
      simp
  exact fields.congr (by simp) fun message => by simp [CursorInvalOne.Fits]

def DisplayInit.Fits (init : DisplayInit) : Prop :=
  init.pixmapCacheId < 256 ^ 1 ∧ FitsSigned 64 init.pixmapCacheSize ∧
    init.glzDictionaryId < 256 ^ 1 ∧ FitsSigned 32 init.glzDictionaryWindowSize

theorem DisplayInit.canonical : Canonical DisplayInit.reader DisplayInit.encode DisplayInit.Fits := by
  have wide := Reader.signed_canonical (by decide : 0 < 64) rfl Reader.u64_canonical
  have word := Reader.signed_canonical (by decide : 0 < 32) rfl Reader.u32_canonical
  have fields := Canonical.start <|
    Canonical.field DisplayInit.pixmapCacheId Reader.u8_canonical fun pixmapCacheId =>
    Canonical.field DisplayInit.pixmapCacheSize wide fun pixmapCacheSize =>
    Canonical.field DisplayInit.glzDictionaryId Reader.u8_canonical fun glzDictionaryId =>
    Canonical.field DisplayInit.glzDictionaryWindowSize word fun glzDictionaryWindowSize =>
    @Canonical.done ProtoError _ _ _
      ⟨pixmapCacheId, pixmapCacheSize, glzDictionaryId, glzDictionaryWindowSize⟩ fun init => by
      cases init
      simp [and_assoc]
  apply fields.congr
  · simp [DisplayInit.encode]
  · simp [DisplayInit.Fits]

/-! ### Bodies that go to the end -/

def Ping.Fits (ping : Ping) : Prop := ping.id < 256 ^ 4 ∧ ping.timestamp < 256 ^ 8

theorem Reader.bytes_all (buf : List UInt8) :
    Reader.bytes buf.length buf = .ok (buf, []) := by
  rw [Reader.bytes, Reader.take_ok (Nat.le_refl buf.length), List.take_length, List.drop_length]

theorem Reader.remaining_taken {α : Type} {make : List UInt8 → α} {buf rest : List UInt8}
    {value : α} :
    (do let n ← Reader.remaining
        let data ← Reader.bytes n
        pure (make data) : Reader α) buf = .ok (value, rest) ↔ value = make buf ∧ rest = [] := by
  have counted : Reader.remaining buf = .ok (buf.length, buf) := rfl
  rw [Codec.bind_ok counted, Codec.bind_ok (Reader.bytes_all buf)]
  constructor
  · intro ran
    cases ran
    exact ⟨rfl, rfl⟩
  · rintro ⟨rfl, rfl⟩
    rfl

theorem Ping.reads_iff {buf rest : List UInt8} {ping : Ping} :
    Ping.reader buf = .ok (ping, rest) ↔ ping.Fits ∧ buf = ping.encode ∧ rest = [] := by
  have last (id timestamp : Nat) (middle : List UInt8) :=
    @Reader.remaining_taken Ping (fun data => ⟨id, timestamp, data⟩) middle rest ping
  unfold Ping.reader Ping.Fits Ping.encode
  rw [Reader.u32_canonical.bind_iff]
  constructor
  · rintro ⟨id, afterId, fits, rfl, ran⟩
    rcases Reader.u64_canonical.bind_iff.mp ran with ⟨timestamp, data, fits', rfl, went⟩
    rcases (last id timestamp data).mp went with ⟨rfl, nothing⟩
    exact ⟨⟨fits, fits'⟩, (List.append_assoc _ _ _).symm, nothing⟩
  · rintro ⟨⟨fits, fits'⟩, rfl, rfl⟩
    refine ⟨ping.id, _, fits, List.append_assoc _ _ _, ?_⟩
    rw [Reader.u64_canonical.bind_iff]
    exact ⟨ping.timestamp, ping.data, fits', rfl, (last _ _ _).mpr ⟨rfl, rfl⟩⟩

def Cursor.Cached (cursor : Cursor) : Prop :=
  cursor.flags &&& CursorFlag.FROM_CACHE ≠ 0 ∨
    cursor.flags &&& CursorFlag.FROM_CACHE_LOSSLESS ≠ 0

def Cursor.Fits (cursor : Cursor) : Prop :=
  cursor.flags < 256 ^ 2 ∧ cursor.header.Fits ∧ cursor.header.width ≤ MAX_CURSOR_DIM ∧
    cursor.header.height ≤ MAX_CURSOR_DIM ∧ cursor.data.length ≤ MAX_CURSOR_BYTES

/-- A cursor of the cache has no picture and may have anything behind it, another one goes to
the end. -/
def Cursor.Ends (cursor : Cursor) (rest : List UInt8) : Prop :=
  (cursor.Cached → cursor.data = []) ∧ (¬ cursor.Cached → rest = [])

theorem Cursor.behind_header {flags : Nat} {header : CursorHeader} {middle rest : List UInt8}
    {cursor : Cursor} :
    (if header.width > MAX_CURSOR_DIM ∨ header.height > MAX_CURSOR_DIM then
        throw (.sizeTooLarge (header.width * header.height) (MAX_CURSOR_DIM * MAX_CURSOR_DIM))
      else do
        let data ←
          if flags &&& CursorFlag.FROM_CACHE ≠ 0 ∨
              flags &&& CursorFlag.FROM_CACHE_LOSSLESS ≠ 0 then
            pure []
          else do
            let n ← Reader.remaining
            Reader.bytes n
        if data.length > MAX_CURSOR_BYTES then
          throw (.sizeTooLarge (data.length % 2 ^ 32) MAX_CURSOR_BYTES)
        else pure { flags := flags, header := header, data := data } : Reader Cursor) middle =
        .ok (cursor, rest) ↔
      (header.width ≤ MAX_CURSOR_DIM ∧ header.height ≤ MAX_CURSOR_DIM ∧
        cursor.data.length ≤ MAX_CURSOR_BYTES) ∧
      cursor.Ends rest ∧ middle = cursor.data ++ rest ∧ cursor.flags = flags ∧
        cursor.header = header := by
  by_cases big : header.width > MAX_CURSOR_DIM ∨ header.height > MAX_CURSOR_DIM
  · rw [if_pos big]
    constructor
    · intro impossible
      cases impossible
    · rintro ⟨small, _behind⟩
      omega
  · rw [if_neg big]
    by_cases cached : flags &&& CursorFlag.FROM_CACHE ≠ 0 ∨
        flags &&& CursorFlag.FROM_CACHE_LOSSLESS ≠ 0
    · rw [if_pos cached, pure_bind]
      constructor
      · intro ran
        cases ran
        exact ⟨by simp; omega, ⟨fun _cached => rfl, fun uncached => absurd cached uncached⟩, by simp⟩
      · cases cursor with
        | mk flags' header' data' =>
            rintro ⟨_small, ⟨empty, _whole⟩, rfl, rfl, rfl⟩
            have none : data' = [] := empty cached
            subst none
            rfl
    · rw [if_neg cached]
      have counted : Reader.remaining middle = .ok (middle.length, middle) := rfl
      rw [Codec.bind_ok counted, Codec.bind_ok (Reader.bytes_all middle)]
      dsimp only
      by_cases long : middle.length > MAX_CURSOR_BYTES
      · rw [if_pos long]
        constructor
        · intro impossible
          cases impossible
        · rintro ⟨⟨_width, _height, short⟩, ⟨_empty, whole⟩, rfl, rfl, rfl⟩
          rw [whole cached, List.append_nil] at long
          omega
      · rw [if_neg long]
        constructor
        · intro ran
          cases ran
          exact ⟨by simp; omega, ⟨fun cached' => absurd cached' cached, fun _cached => rfl⟩, by simp⟩
        · rintro ⟨_small, ⟨_empty, whole⟩, rfl, rfl, rfl⟩
          rw [whole cached, List.append_nil]
          rfl

theorem Cursor.reads_iff {buf rest : List UInt8} {cursor : Cursor} :
    Cursor.reader buf = .ok (cursor, rest) ↔
      cursor.Fits ∧ cursor.Ends rest ∧ buf = cursor.encode ++ rest := by
  unfold Cursor.reader
  rw [Reader.u16_canonical.bind_iff]
  constructor
  · rintro ⟨flags, afterFlags, fits, rfl, ran⟩
    rcases CursorHeader.canonical.bind_iff.mp ran with ⟨header, middle, inside, rfl, went⟩
    rcases Cursor.behind_header.mp went with ⟨small, ends, rfl, rfl, rfl⟩
    exact ⟨⟨fits, inside, small⟩, ends, by simp [Cursor.encode]⟩
  · rintro ⟨⟨fits, inside, small⟩, ends, rfl⟩
    refine ⟨cursor.flags, cursor.header.encode ++ (cursor.data ++ rest), fits, ?_, ?_⟩
    · simp [Cursor.encode]
    · apply CursorHeader.canonical.bind_iff.mpr
      exact ⟨cursor.header, _, inside, rfl,
        Cursor.behind_header.mpr ⟨small, ends, rfl, rfl, rfl⟩⟩

def CursorInit.Fits (init : CursorInit) : Prop :=
  FitsSigned 16 init.positionX ∧ FitsSigned 16 init.positionY ∧ init.trailLength < 256 ^ 2 ∧
    init.trailFrequency < 256 ^ 2 ∧ init.visible < 256 ^ 1 ∧ init.cursor.Fits

theorem CursorInit.reads_iff {buf rest : List UInt8} {init : CursorInit} :
    CursorInit.reader buf = .ok (init, rest) ↔
      init.Fits ∧ init.cursor.Ends rest ∧
        buf = writeI16 init.positionX ++ (writeI16 init.positionY ++ (writeU16 init.trailLength ++
          (writeU16 init.trailFrequency ++ (writeU8 init.visible ++
            (init.cursor.encode ++ rest))))) := by
  unfold CursorInit.reader
  constructor
  · intro ran
    rcases Reader.i16_canonical.bind_iff.mp ran with ⟨x, afterX, fitsX, rfl, ranX⟩
    rcases Reader.i16_canonical.bind_iff.mp ranX with ⟨y, afterY, fitsY, rfl, ranY⟩
    rcases Reader.u16_canonical.bind_iff.mp ranY with ⟨length, afterLength, fitsLength, rfl, ranL⟩
    rcases Reader.u16_canonical.bind_iff.mp ranL with ⟨often, afterOften, fitsOften, rfl, ranO⟩
    rcases Reader.u8_canonical.bind_iff.mp ranO with ⟨visible, afterSeen, fitsSeen, rfl, ranV⟩
    rcases Codec.bind_eq_ok ranV with ⟨cursor, middle, started, made⟩
    cases made
    rcases Cursor.reads_iff.mp started with ⟨fits, ends, rfl⟩
    exact ⟨⟨fitsX, fitsY, fitsLength, fitsOften, fitsSeen, fits⟩, ends, rfl⟩
  · rintro ⟨⟨fitsX, fitsY, fitsLength, fitsOften, fitsSeen, fits⟩, ends, rfl⟩
    have picture := Cursor.reads_iff.mpr ⟨fits, ends, rfl⟩
    rw [Codec.bind_ok ((Reader.i16_canonical _ _ _).mpr ⟨fitsX, rfl⟩),
      Codec.bind_ok ((Reader.i16_canonical _ _ _).mpr ⟨fitsY, rfl⟩),
      Codec.bind_ok ((Reader.u16_canonical _ _ _).mpr ⟨fitsLength, rfl⟩),
      Codec.bind_ok ((Reader.u16_canonical _ _ _).mpr ⟨fitsOften, rfl⟩),
      Codec.bind_ok ((Reader.u8_canonical _ _ _).mpr ⟨fitsSeen, rfl⟩), Codec.bind_ok picture]
    rfl

def CursorSet.Fits (message : CursorSet) : Prop :=
  FitsSigned 16 message.positionX ∧ FitsSigned 16 message.positionY ∧
    message.visible < 256 ^ 1 ∧ message.cursor.Fits

theorem CursorSet.reads_iff {buf rest : List UInt8} {message : CursorSet} :
    CursorSet.reader buf = .ok (message, rest) ↔
      message.Fits ∧ message.cursor.Ends rest ∧
        buf = writeI16 message.positionX ++ (writeI16 message.positionY ++
          (writeU8 message.visible ++ (message.cursor.encode ++ rest))) := by
  unfold CursorSet.reader
  constructor
  · intro ran
    rcases Reader.i16_canonical.bind_iff.mp ran with ⟨x, afterX, fitsX, rfl, ranX⟩
    rcases Reader.i16_canonical.bind_iff.mp ranX with ⟨y, afterY, fitsY, rfl, ranY⟩
    rcases Reader.u8_canonical.bind_iff.mp ranY with ⟨visible, afterSeen, fitsSeen, rfl, ranV⟩
    rcases Codec.bind_eq_ok ranV with ⟨cursor, middle, started, made⟩
    cases made
    rcases Cursor.reads_iff.mp started with ⟨fits, ends, rfl⟩
    exact ⟨⟨fitsX, fitsY, fitsSeen, fits⟩, ends, rfl⟩
  · rintro ⟨⟨fitsX, fitsY, fitsSeen, fits⟩, ends, rfl⟩
    have picture := Cursor.reads_iff.mpr ⟨fits, ends, rfl⟩
    rw [Codec.bind_ok ((Reader.i16_canonical _ _ _).mpr ⟨fitsX, rfl⟩),
      Codec.bind_ok ((Reader.i16_canonical _ _ _).mpr ⟨fitsY, rfl⟩),
      Codec.bind_ok ((Reader.u8_canonical _ _ _).mpr ⟨fitsSeen, rfl⟩), Codec.bind_ok picture]
    rfl

/-! ### What is accepted -/

inductive PlainBody where
  | setAck (message : SetAck)
  | ackSync (message : AckSync)
  | pong (message : Pong)
  | disconnecting (message : Disconnecting)
  | init (message : Init)
  | clientInfo (message : ClientInfo)
  | mouseModeBody (message : MouseModeBody)
  | mouseModeRequest (message : MouseModeRequest)
  | multiMediaTime (message : MultiMediaTime)
  | displayInit (message : DisplayInit)
  | mode (message : Mode)
  | surfaceCreate (message : SurfaceCreate)
  | surfaceDestroy (message : SurfaceDestroy)
  | streamDestroy (message : StreamDestroy)
  | keyCode (message : KeyCode)
  | keyModifiers (message : KeyModifiers)
  | mouseMotion (message : MouseMotion)
  | mousePosition (message : MousePosition)
  | mouseButton (message : MouseButton)
  | cursorMove (message : CursorMove)
  | cursorInvalOne (message : CursorInvalOne)
  | ping (message : Ping)
  | cursorInit (message : CursorInit)
  | cursorSet (message : CursorSet)

/-- The fields are in the ranges of their types, and a picture within its limits. -/
def PlainBody.Fits : PlainBody → Prop
  | .setAck message => message.Fits
  | .ackSync message => message.Fits
  | .pong message => message.Fits
  | .disconnecting message => message.Fits
  | .init message => message.Fits
  | .clientInfo message => message.Fits
  | .mouseModeBody message => message.Fits
  | .mouseModeRequest message => message.Fits
  | .multiMediaTime message => message.Fits
  | .displayInit message => message.Fits
  | .mode message => message.Fits
  | .surfaceCreate message => message.Fits
  | .surfaceDestroy message => message.Fits
  | .streamDestroy message => message.Fits
  | .keyCode message => message.Fits
  | .keyModifiers message => message.Fits
  | .mouseMotion message => message.Fits
  | .mousePosition message => message.Fits
  | .mouseButton message => message.Fits
  | .cursorMove message => message.Fits
  | .cursorInvalOne message => message.Fits
  | .ping message => message.Fits
  | .cursorInit message => message.Fits
  | .cursorSet message => message.Fits

/-- The bytes of its fields. Some of the bodies are only read. -/
def PlainBody.encode : PlainBody → List UInt8
  | .setAck message => message.encode
  | .ackSync message => message.encode
  | .pong message => message.encode
  | .disconnecting message => message.encode
  | .init message => message.encode
  | .clientInfo message => message.encode
  | .mouseModeBody message => message.encode
  | .mouseModeRequest message => message.encode
  | .multiMediaTime message => message.encode
  | .displayInit message => message.encode
  | .mode message => message.encode
  | .surfaceCreate message => message.encode
  | .surfaceDestroy message => message.encode
  | .streamDestroy message => message.encode
  | .keyCode message => message.encode
  | .keyModifiers message => message.encode
  | .mouseMotion message => message.encode
  | .mousePosition message => message.encode
  | .mouseButton message => message.encode
  | .cursorMove message => writeI16 message.positionX ++ writeI16 message.positionY
  | .cursorInvalOne message => writeU64 message.unique
  | .ping message => message.encode
  | .cursorInit message =>
      writeI16 message.positionX ++ (writeI16 message.positionY ++
        (writeU16 message.trailLength ++ (writeU16 message.trailFrequency ++
          (writeU8 message.visible ++ message.cursor.encode))))
  | .cursorSet message =>
      writeI16 message.positionX ++ (writeI16 message.positionY ++
        (writeU8 message.visible ++ message.cursor.encode))

/-- What may stand behind it. -/
def PlainBody.Ends : PlainBody → List UInt8 → Prop
  | .ping _, rest => rest = []
  | .cursorInit message, rest => message.cursor.Ends rest
  | .cursorSet message, rest => message.cursor.Ends rest
  | _, _ => True

def PlainBody.DecodedFrom (buf : List UInt8) : PlainBody → Prop
  | .setAck message => SetAck.decode buf = .ok message
  | .ackSync message => AckSync.decode buf = .ok message
  | .pong message => Pong.decode buf = .ok message
  | .disconnecting message => Disconnecting.decode buf = .ok message
  | .init message => Init.decode buf = .ok message
  | .clientInfo message => ClientInfo.decode buf = .ok message
  | .mouseModeBody message => MouseModeBody.decode buf = .ok message
  | .mouseModeRequest message => MouseModeRequest.decode buf = .ok message
  | .multiMediaTime message => MultiMediaTime.decode buf = .ok message
  | .displayInit message => DisplayInit.decode buf = .ok message
  | .mode message => Mode.decode buf = .ok message
  | .surfaceCreate message => SurfaceCreate.decode buf = .ok message
  | .surfaceDestroy message => SurfaceDestroy.decode buf = .ok message
  | .streamDestroy message => StreamDestroy.decode buf = .ok message
  | .keyCode message => KeyCode.decode buf = .ok message
  | .keyModifiers message => KeyModifiers.decode buf = .ok message
  | .mouseMotion message => MouseMotion.decode buf = .ok message
  | .mousePosition message => MousePosition.decode buf = .ok message
  | .mouseButton message => MouseButton.decode buf = .ok message
  | .cursorMove message => CursorMove.decode buf = .ok message
  | .cursorInvalOne message => CursorInvalOne.decode buf = .ok message
  | .ping message => Ping.decode buf = .ok message
  | .cursorInit message => CursorInit.decode buf = .ok message
  | .cursorSet message => CursorSet.decode buf = .ok message

theorem Reader.decode_iff {α : Type} {reader : Reader α} {buf : List UInt8} {value : α} :
    reader.decode buf = .ok value ↔ ∃ rest, reader buf = .ok (value, rest) := by
  constructor
  · intro decoded
    exact Reader.decode_eq_ok decoded
  · rintro ⟨rest, ran⟩
    exact Reader.decode_ok ran

theorem Reader.decode_canonical {α : Type} {reader : Reader α} {encode : α → List UInt8}
    {fits : α → Prop} (canonical : Canonical reader encode fits) (buf : List UInt8) (value : α) :
    reader.decode buf = .ok value ↔ fits value ∧ ∃ rest, buf = encode value ++ rest ∧ True := by
  simp [Reader.decode_iff, canonical buf value]

/-- A body is taken as a value exactly when it is the encoding of the value, followed by what
may follow it. -/
theorem PlainBody.decodes_iff (body : PlainBody) (buf : List UInt8) :
    body.DecodedFrom buf ↔ body.Fits ∧ ∃ rest, buf = body.encode ++ rest ∧ body.Ends rest := by
  cases body with
  | setAck message => exact Reader.decode_canonical SetAck.canonical buf message
  | ackSync message => exact Reader.decode_canonical AckSync.canonical buf message
  | pong message => exact Reader.decode_canonical Pong.canonical buf message
  | disconnecting message => exact Reader.decode_canonical Disconnecting.canonical buf message
  | init message => exact Reader.decode_canonical Init.canonical buf message
  | clientInfo message => exact Reader.decode_canonical ClientInfo.canonical buf message
  | mouseModeBody message => exact Reader.decode_canonical MouseModeBody.canonical buf message
  | mouseModeRequest message => exact Reader.decode_canonical MouseModeRequest.canonical buf message
  | multiMediaTime message => exact Reader.decode_canonical MultiMediaTime.canonical buf message
  | displayInit message => exact Reader.decode_canonical DisplayInit.canonical buf message
  | mode message => exact Reader.decode_canonical Mode.canonical buf message
  | surfaceCreate message => exact Reader.decode_canonical SurfaceCreate.canonical buf message
  | surfaceDestroy message => exact Reader.decode_canonical SurfaceDestroy.canonical buf message
  | streamDestroy message => exact Reader.decode_canonical StreamDestroy.canonical buf message
  | keyCode message => exact Reader.decode_canonical KeyCode.canonical buf message
  | keyModifiers message => exact Reader.decode_canonical KeyModifiers.canonical buf message
  | mouseMotion message => exact Reader.decode_canonical MouseMotion.canonical buf message
  | mousePosition message => exact Reader.decode_canonical MousePosition.canonical buf message
  | mouseButton message => exact Reader.decode_canonical MouseButton.canonical buf message
  | cursorMove message => exact Reader.decode_canonical CursorMove.canonical buf message
  | cursorInvalOne message => exact Reader.decode_canonical CursorInvalOne.canonical buf message
  | ping message =>
      change Ping.reader.decode buf = .ok message ↔ _
      rw [Reader.decode_iff]
      simp [Ping.reads_iff, Fits, encode, Ends]
  | cursorInit message =>
      change CursorInit.reader.decode buf = .ok message ↔ _
      rw [Reader.decode_iff]
      simp [CursorInit.reads_iff, Fits, encode, Ends, and_comm]
  | cursorSet message =>
      change CursorSet.reader.decode buf = .ok message ↔ _
      rw [Reader.decode_iff]
      simp [CursorSet.reads_iff, Fits, encode, Ends, and_comm]

end Capsaicin.Proto
