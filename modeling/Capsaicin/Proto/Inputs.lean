/-
Bodies of the inputs channel.
-/

import Capsaicin.Proto.Types

namespace Capsaicin.Proto

namespace ClientMsg

def INPUTS_KEY_DOWN : Nat := 101
def INPUTS_KEY_UP : Nat := 102
def INPUTS_KEY_MODIFIERS : Nat := 103
def INPUTS_MOUSE_MOTION : Nat := 111
def INPUTS_MOUSE_POSITION : Nat := 112
def INPUTS_MOUSE_PRESS : Nat := 113
def INPUTS_MOUSE_RELEASE : Nat := 114

end ClientMsg

namespace ServerMsg

def INPUTS_INIT : Nat := 101
def INPUTS_KEY_MODIFIERS : Nat := 102
def INPUTS_MOUSE_MOTION_ACK : Nat := 111

end ServerMsg

structure KeyCode where
  code : Nat
  deriving DecidableEq, Repr

def KeyCode.reader : Reader KeyCode := do
  let code ← Reader.u32
  pure { code := code }

def KeyCode.decode (buf : List UInt8) : Except ProtoError KeyCode := KeyCode.reader.decode buf

def KeyCode.encode (key : KeyCode) : List UInt8 := writeU32 key.code

structure KeyModifiers where
  keyboardModifiers : Nat
  deriving DecidableEq, Repr

def KeyModifiers.reader : Reader KeyModifiers := do
  let keyboardModifiers ← Reader.u32
  pure { keyboardModifiers := keyboardModifiers }

def KeyModifiers.decode (buf : List UInt8) : Except ProtoError KeyModifiers :=
  KeyModifiers.reader.decode buf

def KeyModifiers.encode (modifiers : KeyModifiers) : List UInt8 :=
  writeU32 modifiers.keyboardModifiers

structure MouseMotion where
  dx : Int
  dy : Int
  buttonsState : Nat
  deriving DecidableEq, Repr

def MouseMotion.reader : Reader MouseMotion := do
  let dx ← Reader.i32
  let dy ← Reader.i32
  let buttonsState ← Reader.u32
  pure { dx := dx, dy := dy, buttonsState := buttonsState }

def MouseMotion.decode (buf : List UInt8) : Except ProtoError MouseMotion :=
  MouseMotion.reader.decode buf

def MouseMotion.encode (motion : MouseMotion) : List UInt8 :=
  writeI32 motion.dx ++ writeI32 motion.dy ++ writeU32 motion.buttonsState

structure MousePosition where
  x : Nat
  y : Nat
  buttonsState : Nat
  displayId : Nat
  deriving DecidableEq, Repr

def MousePosition.reader : Reader MousePosition := do
  let x ← Reader.u32
  let y ← Reader.u32
  let buttonsState ← Reader.u32
  let displayId ← Reader.u8
  pure { x := x, y := y, buttonsState := buttonsState, displayId := displayId }

def MousePosition.decode (buf : List UInt8) : Except ProtoError MousePosition :=
  MousePosition.reader.decode buf

def MousePosition.encode (position : MousePosition) : List UInt8 :=
  writeU32 position.x ++ writeU32 position.y ++ writeU32 position.buttonsState ++
    writeU8 position.displayId

structure MouseButton where
  button : Nat
  buttonsState : Nat
  deriving DecidableEq, Repr

def MouseButton.reader : Reader MouseButton := do
  let button ← Reader.u8
  let buttonsState ← Reader.u32
  pure { button := button, buttonsState := buttonsState }

def MouseButton.decode (buf : List UInt8) : Except ProtoError MouseButton :=
  MouseButton.reader.decode buf

def MouseButton.encode (press : MouseButton) : List UInt8 :=
  writeU8 press.button ++ writeU32 press.buttonsState

end Capsaicin.Proto
