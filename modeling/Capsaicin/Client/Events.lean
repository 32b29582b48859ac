/-
What the client tells its embedder, and what the embedder can send to the guest.
-/

import Capsaicin.Proto.Display

namespace Capsaicin.Client

open Proto (Rect Head VideoCodec)

inductive MouseMode where
  | client
  | server
  deriving DecidableEq, Repr

def MouseMode.fromRaw (value : Nat) : MouseMode :=
  if value &&& Proto.MouseModes.CLIENT ≠ 0 then .client else .server

inductive SurfaceFormat where
  | xrgb8888
  | argb8888
  | rgb565
  | rgb555
  | a8
  | a1
  | unknown (raw : Nat)
  deriving DecidableEq, Repr

def SurfaceFormat.fromRaw (value : Nat) : SurfaceFormat :=
  if value = 32 then .xrgb8888
  else if value = 96 then .argb8888
  else if value = 80 then .rgb565
  else if value = 16 then .rgb555
  else if value = 8 then .a8
  else if value = 1 then .a1
  else .unknown value

inductive RegionPixels where
  | solidColor (color : Nat)
  | raw (data : List UInt8) (stride : Nat)
  deriving DecidableEq, Repr

inductive DisplayEvent where
  | mode (width height bits : Nat)
  | surfaceCreated (id width height : Nat) (format : SurfaceFormat) (primary : Bool)
  | surfaceDestroyed (id : Nat)
  | monitorsConfig (maxAllowed : Nat) (heads : List Head)
  | mark
  | reset
  | unhandledDraw (msgType size : Nat)
  | region (surfaceId : Nat) (rect : Rect) (pixels : RegionPixels) (surfaceFormat : SurfaceFormat)
  | streamCreated (streamId surfaceId : Nat) (codec : VideoCodec) (dest : Rect)
      (srcWidth srcHeight : Nat)
  | streamFrame (streamId multiMediaTime : Nat) (destRect : Rect) (pixels : RegionPixels)
  | streamDestroyed (streamId : Nat)
  | copyRect (surfaceId : Nat) (srcX srcY : Int) (destRect : Rect)
  deriving DecidableEq, Repr

inductive CursorEvent where
  | set (x y : Int) (hotX hotY width height : Nat) (pixels : List UInt8) (unique : Nat)
      (cacheable visible : Bool)
  | setFromCache (x y : Int) (unique : Nat) (visible : Bool)
  | move (x y : Int)
  | hide
  | invalidateOne (unique : Nat)
  | invalidateAll
  deriving DecidableEq, Repr

/-- The end of a connection is not an event of a run without socket errors. -/
inductive ClientEvent where
  | display (event : DisplayEvent)
  | cursor (event : CursorEvent)
  | mouseMode (mode : MouseMode)
  deriving DecidableEq, Repr

inductive InputEvent where
  | keyDown (code : Nat)
  | keyUp (code : Nat)
  | keyModifiers (mods : Nat)
  | mouseMotion (dx dy : Int) (buttons : Nat)
  | mousePosition (x y buttons display : Nat)
  | mousePress (button buttons : Nat)
  | mouseRelease (button buttons : Nat)
  deriving DecidableEq, Repr

inductive Effect where
  | write (msgType : Nat) (body : List UInt8)
  | emit (event : ClientEvent)
  deriving DecidableEq, Repr

end Capsaicin.Client
