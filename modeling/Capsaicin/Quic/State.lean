/-
The coding state shared by the channels of a pass: the wait counter with its
pseudo-random source, the wait-mask schedule and the MELCODE state.
-/

import Capsaicin.Quic.Format

namespace Capsaicin.Quic

abbrev MELCSTATES : Nat := 32

/-- MELCODE exponents, `log2` of the run weight of each state. -/
def J_TABLE : List Nat :=
  [ 0, 0, 0, 0, 1, 1, 1, 1, 2, 2, 2, 2, 3, 3, 3, 3, 4, 4, 5, 5, 6, 6, 7, 7, 8, 9, 10, 11, 12, 13,
    14, 15 ]

def exponent (state : Fin MELCSTATES) : Nat := J_TABLE.get ⟨state.val, state.isLt⟩

def DEFWMINEXT : Nat := 2048
def DEFWMIMAX : Nat := 6
def TABRAND_SEEDMASK : Nat := 0x0FF

/-- The row of `BESTTRIGTAB` for `DEFEVOL / 2 = 1`, the only one in use. -/
def BESTTRIGTAB : List Nat := [110, 550, 900, 800, 550, 400, 350, 250, 140, 160, 140]

def TABRAND_CHAOS : List Nat :=
  [ 0x02c57542, 0x35427717, 0x2f5a2153, 0x9244f155, 0x7bd26d07, 0x354c6052, 0x57329b28, 0x2993868e,
    0x6cd8808c, 0x147b46e0, 0x99db66af, 0xe32b4cac, 0x1b671264, 0x9d433486, 0x62a4c192, 0x06089a4b,
    0x9e3dce44, 0xdaabee13, 0x222425ea, 0xa46f331d, 0xcd589250, 0x8bb81d7f, 0xc8b736b9, 0x35948d33,
    0xd7ac7fd0, 0x5fbe2803, 0x2cfbc105, 0x013dbc4e, 0x7a37820f, 0x39f88e9e, 0xedd58794, 0xc5076689,
    0xfcada5a4, 0x64c2f46d, 0xb3ba3243, 0x8974b4f9, 0x5a05aebd, 0x20afcd00, 0x39e2b008, 0x88a18a45,
    0x600bde29, 0xf3971ace, 0xf37b0a6b, 0x7041495b, 0x70b707ab, 0x06beffbb, 0x4206051f, 0xe13c4ee3,
    0xc1a78327, 0x91aa067c, 0x8295f72a, 0x732917a6, 0x1d871b4d, 0x4048f136, 0xf1840e7e, 0x6a6048c1,
    0x696cb71a, 0x7ff501c3, 0x0fc6310b, 0x57e0f83d, 0x8cc26e74, 0x11a525a2, 0x946934c7, 0x7cd888f0,
    0x8f9d8604, 0x4f86e73b, 0x04520316, 0xdeeea20c, 0xf1def496, 0x67687288, 0xf540c5b2, 0x22401484,
    0x3478658a, 0xc2385746, 0x01979c2c, 0x5dad73c8, 0x0321f58b, 0xf0fedbee, 0x92826ddf, 0x284bec73,
    0x5b1a1975, 0x03df1e11, 0x20963e01, 0xa17cf12b, 0x740d776e, 0xa7a6bf3c, 0x01b5cce4, 0x1118aa76,
    0xfc6fac0a, 0xce927e9b, 0x00bf2567, 0x806f216c, 0xbca69056, 0x795bd3e9, 0xc9dc4557, 0x8929b6c2,
    0x789d52ec, 0x3f3fbf40, 0xb9197368, 0xa38c15b5, 0xc3b44fa8, 0xca8333b0, 0xb7e8d590, 0xbe807feb,
    0xbf5f8360, 0xd99e2f5c, 0x372928e1, 0x7c757c4c, 0x0db5b154, 0xc01ede02, 0x1fc86e78, 0x1f3985be,
    0xb4805c77, 0x00c880fa, 0x974c1b12, 0x35ab0214, 0xb2dc840d, 0x5b00ae37, 0xd313b026, 0xb260969d,
    0x7f4c8879, 0x1734c4d3, 0x49068631, 0xb9f6a021, 0x6b863e6f, 0xcee5debf, 0x29f8c9fb, 0x53dd6880,
    0x72b61223, 0x1f67a9fd, 0x0a0f6993, 0x13e59119, 0x11cca12e, 0xfe6b6766, 0x16b6effc, 0x97918fc4,
    0xc2b8a563, 0x94f2f741, 0x0bfa8c9a, 0xd1537ae8, 0xc1da349c, 0x873c60ca, 0x95005b85, 0x9b5c080e,
    0xbc8abbd9, 0xe1eab1d2, 0x6dac9070, 0x4ea9ebf1, 0xe0cf30d4, 0x1ef5bd7b, 0xd161043e, 0x5d2fa2e2,
    0xff5d3cae, 0x86ed9f87, 0x2aa1daa1, 0xbd731a34, 0x9e8f4b22, 0xb1c2c67a, 0xc21758c9, 0xa182215d,
    0xccb01948, 0x8d168df7, 0x04238cfe, 0x368c3dbc, 0x0aeadca5, 0xbad21c24, 0x0a71fee5, 0x9fc5d872,
    0x54c152c6, 0xfc329483, 0x6783384a, 0xeddb3e1c, 0x65f90e30, 0x884ad098, 0xce81675a, 0x4b372f7d,
    0x68bf9a39, 0x43445f1e, 0x40f8d8cb, 0x90d5acb6, 0x4cd07282, 0x349eeb06, 0x0c9d5332, 0x520b24ef,
    0x80020447, 0x67976491, 0x2f931ca3, 0xfe9b0535, 0xfcd30220, 0x61a9e6cc, 0xa487d8d7, 0x3f7c5dd1,
    0x7d0127c5, 0x48f51d15, 0x60dea871, 0xc9a91cb7, 0x58b53bb3, 0x9d5e0b2d, 0x624a78b4, 0x30dbee1b,
    0x9bdf22e7, 0x1df5c299, 0x2d5643a7, 0xf4dd35ff, 0x03ca8fd6, 0x53b47ed8, 0x6f2c19aa, 0xfeb0c1f4,
    0x49e54438, 0x2f2577e6, 0xbf876969, 0x72440ea9, 0xfa0bafb8, 0x74f5b3a0, 0x7dd357cd, 0x89ce1358,
    0x6ef2cdda, 0x1e7767f3, 0xa6be9fdb, 0x4f5f88f8, 0xba994a3a, 0x08ca6b65, 0xe0893818, 0x9e00a16a,
    0xf42bfc8f, 0x9972eedc, 0x749c8b51, 0x32c05f5e, 0xd706805f, 0x6bfbb7cf, 0xd9210a10, 0x31a1db97,
    0x923a9559, 0x37a7a1f6, 0x059f8861, 0xca493e62, 0x65157e81, 0x8f6467dd, 0xab85ff9f, 0x9331aff2,
    0x8616b9f5, 0xedbd5695, 0xee7e29b1, 0x313ac44f, 0xb903112f, 0x432ef649, 0xdc0a36c0, 0x61cf2bba,
    0x81474925, 0xa8b6c7ad, 0xee5931de, 0xb2f8158d, 0x59fb7409, 0x2e3dfaed, 0x9af25a3f, 0xe1fed4d5 ]

theorem exponent_le (state : Fin MELCSTATES) : exponent state ≤ 15 := by
  revert state
  decide

/-- The two MELCODE caches of the source carry what they are caches of. -/
structure CommonState where
  waitcnt : Nat
  tabrandSeed : Nat
  wmTrigger : Nat
  wmidx : Nat
  wmileft : Nat
  melcstate : Fin MELCSTATES
  melclen : Nat
  melcorder : Nat
  melclen_eq : melclen = exponent melcstate
  melcorder_eq : melcorder = 2 ^ melclen
  deriving DecidableEq, Repr

namespace CommonState

def setWmTrigger (state : CommonState) : CommonState :=
  let wm := if state.wmidx > 10 then 10 else state.wmidx
  { state with wmTrigger := BESTTRIGTAB.getD wm 0 }

def setMelc (state : CommonState) (next : Fin MELCSTATES) : CommonState :=
  { state with
    melcstate := next
    melclen := exponent next
    melcorder := 1 <<< exponent next
    melclen_eq := rfl
    melcorder_eq := Nat.one_shiftLeft _ }

def resetRle (state : CommonState) : CommonState := state.setMelc 0

def default : CommonState :=
  let start : CommonState :=
    { waitcnt := 0
      tabrandSeed := TABRAND_SEEDMASK
      wmTrigger := 0
      wmidx := 0
      wmileft := DEFWMINEXT
      melcstate := 0
      melclen := exponent 0
      melcorder := 1 <<< exponent 0
      melclen_eq := rfl
      melcorder_eq := Nat.one_shiftLeft _ }
  start.setWmTrigger

def rise (state : CommonState) : CommonState :=
  if inside : state.melcstate.val < MELCSTATES - 1 then
    state.setMelc ⟨state.melcstate.val + 1, by omega⟩
  else state

def fall (state : CommonState) : CommonState :=
  if 0 < state.melcstate.val then
    state.setMelc ⟨state.melcstate.val - 1, Nat.lt_of_le_of_lt (Nat.sub_le _ _) state.melcstate.isLt⟩
  else state

/-- `tabrand`: the seed is stepped before it indexes the table. -/
def tabrand (state : CommonState) : Nat × CommonState :=
  let seed := (state.tabrandSeed + 1) % 2 ^ 32
  (TABRAND_CHAOS.getD (seed &&& TABRAND_SEEDMASK) 0, { state with tabrandSeed := seed })

theorem melclen_le (state : CommonState) : state.melclen ≤ 15 := by
  rw [state.melclen_eq]
  exact exponent_le state.melcstate

end CommonState

def CommonState.SameMelc (state state' : CommonState) : Prop :=
  state.melcstate = state'.melcstate ∧ state.melclen = state'.melclen ∧
    state.melcorder = state'.melcorder

/-- The fields that the row schedule owns. -/
structure Clock where
  wmTrigger : Nat
  wmidx : Nat
  wmileft : Nat
  deriving DecidableEq, Repr

def CommonState.clock (state : CommonState) : Clock :=
  { wmTrigger := state.wmTrigger, wmidx := state.wmidx, wmileft := state.wmileft }

theorem CommonState.rise_clock (state : CommonState) : state.rise.clock = state.clock := by
  unfold rise
  split <;> rfl

theorem CommonState.fall_clock (state : CommonState) : state.fall.clock = state.clock := by
  unfold fall
  split <;> rfl

end Capsaicin.Quic
