import C6021Light.RoutingTask.LocoNetSlotServer

/-!
# `C6021Light.Proofs.FunctionGroups`: the function messages as bit layouts

Six LocoNet messages carry engine functions, and each has its own loop in the source to
encode and to decode it. This module gives each message a `BitLayout`, the table of which
function travels in which bit, and shows that the loops are the layout's `gather` and
`scatter`.

The handlers of the slot server compare the re-encoded old state with the received byte and
skip the write when they are equal. On a layout that test changes nothing: a word that is
equal to the gathered one writes back what is there. So every handler is the same unconditional
`SlotEntry.writeFunctions`, with its own layout (`locoDirF_eq`, `locoSnd_eq`, `locoSnd2_eq`,
`locoFunExt_eq`).
-/

set_option autoImplicit false

namespace C6021Light

open BitMask

/-! ### The tables -/

/-- `OPC_LOCO_DIRF`: F1 to F4, then F0. -/
def dirfLayout : BitLayout 8 32 where
  cells := [(1, 0), (2, 1), (3, 2), (4, 3), (0, 4)]
  register_nodup := by decide
  word_nodup := by decide

/-- `OPC_LOCO_SND`: F5 to F8. -/
def sndLayout : BitLayout 8 32 where
  cells := [(5, 0), (6, 1), (7, 2), (8, 3)]
  register_nodup := by decide
  word_nodup := by decide

/-- `OPC_LOCO_SND2`: F9 to F12. -/
def snd2Layout : BitLayout 8 32 where
  cells := [(9, 0), (10, 1), (11, 2), (12, 3)]
  register_nodup := by decide
  word_nodup := by decide

/-- `OPC_LOCO_FUNEXT`, block `FIRST`: F13 to F19. -/
def funExtFirstLayout : BitLayout 8 32 where
  cells := [(13, 0), (14, 1), (15, 2), (16, 3), (17, 4), (18, 5), (19, 6)]
  register_nodup := by decide
  word_nodup := by decide

/-- `OPC_LOCO_FUNEXT`, block `SECOND`: F21 to F27. -/
def funExtSecondLayout : BitLayout 8 32 where
  cells := [(21, 0), (22, 1), (23, 2), (24, 3), (25, 4), (26, 5), (27, 6)]
  register_nodup := by decide
  word_nodup := by decide

/-- `OPC_LOCO_FUNEXT`, block `THIRD`: F20 and F28. -/
def funExtThirdLayout : BitLayout 8 32 where
  cells := [(20, 5), (28, 6)]
  register_nodup := by decide
  word_nodup := by decide

/-- The layout that a received block id selects. -/
def funExtLayout (blockId : LocoFunExtBlockId) : BitLayout 8 32 :=
  if blockId = .third then funExtThirdLayout
  else if blockId = .first then funExtFirstLayout
  else funExtSecondLayout

/-! ### Decoding loops -/

/-- A decoding loop on a locomotive is a fold on its function register. -/
theorem maskLoop_setFunction {ι : Type} (b : Byte) (idx : ι → Nat) (is : List ι)
    (loco : LocomotiveData) :
    maskLoop (fun loco i mask => loco.setFunction (idx i) (decide (b &&& mask ≠ 0#8))) is 1#8
        loco
      = { loco with functions :=
          is.zipIdx.foldl (fun r p => setBit r (idx p.1) (b.getLsbD p.2)) loco.functions } := by
  have hloop := maskLoop_eq_foldl
    (fun (loco : LocomotiveData) i (mask : Byte) =>
      loco.setFunction (idx i) (decide (b &&& mask ≠ 0#8))) is 0 loco
  rw [BitVec.shiftLeft_zero] at hloop
  rw [hloop]
  clear hloop
  -- From here on the masks are gone, and the induction is over the indices with their bits.
  generalize is.zipIdx = ps
  induction ps generalizing loco with
  | nil => rfl
  | cons p ps ih =>
      rw [List.foldl_cons, List.foldl_cons, ih, decide_and_shiftLeft_one]
      rfl

/-- The direction that a direction byte names. -/
def dirfDirection (dirf : Byte) : EngineDirection :=
  if dirf.getLsbD 5 then .reverse else .forward

/-- The direction mask is bit 5. -/
theorem dirf_and_dirMask (dirf : Byte) :
    dirf &&& kDirfDirMask = kDirfDirMask ↔ dirf.getLsbD 5 = true := by
  revert dirf
  decide

/-- `dirfToLoco` writes the direction and the functions of the first layout. -/
theorem dirfToLoco_eq (dirf : Byte) (loco : LocomotiveData) :
    dirfToLoco dirf loco = { loco with
      direction := dirfDirection dirf
      functions := dirfLayout.scatter dirf loco.functions } := by
  have hdir : (if dirf &&& kDirfDirMask = kDirfDirMask then EngineDirection.reverse
      else EngineDirection.forward) = dirfDirection dirf := by
    simp only [dirf_and_dirMask, dirfDirection]
  rw [dirfToLoco, maskLoop_setFunction, hdir]
  rfl

/-- `sndToLoco` writes F5 to F8. -/
theorem sndToLoco_eq (snd : Byte) (loco : LocomotiveData) :
    sndToLoco snd loco kLowestFunctionInSndMessage
      = { loco with functions := sndLayout.scatter snd loco.functions } :=
  maskLoop_setFunction snd id _ loco

/-- `sndToLoco` with the offset of the second message writes F9 to F12. -/
theorem snd2ToLoco_eq (snd : Byte) (loco : LocomotiveData) :
    sndToLoco snd loco (kLowestFunctionInSndMessage + kFunctionsInSndMessage)
      = { loco with functions := snd2Layout.scatter snd loco.functions } :=
  maskLoop_setFunction snd id _ loco

/-! ### Encoding loops -/

/-- `locoToSnd` reads F5 to F8. -/
theorem locoToSnd_eq (loco : LocomotiveData) :
    locoToSnd loco kLowestFunctionInSndMessage = sndLayout.gather loco.functions :=
  maskLoop_encode loco.getFunction _ _

/-- `locoToSnd` with the offset of the second message reads F9 to F12. -/
theorem locoToSnd2_eq (loco : LocomotiveData) :
    locoToSnd loco (kLowestFunctionInSndMessage + kFunctionsInSndMessage)
      = snd2Layout.gather loco.functions :=
  maskLoop_encode loco.getFunction _ _

/-- The direction is bit 5 of the direction byte, beside the gathered functions. -/
theorem locoToDirf_eq (loco : LocomotiveData) :
    locoToDirf loco
      = setBit (dirfLayout.gather loco.functions) 5 (loco.direction = .reverse) := by
  have hloop (word : Byte) := maskLoop_encode (fun i => loco.getFunction (dirfFunctionIdx i))
    (List.range kFunctionsInDirfMessage) word
  have hwords : locoToDirf loco
      = dirfLayout.cells.foldl (fun b p => setBit b p.2 (loco.functions.getLsbD p.1))
          (setBit 0#8 5 (loco.direction = .reverse)) := by
    rw [locoToDirf, hloop]
    cases loco.direction <;> rfl
  rw [hwords]
  exact foldl_setBit_setBit Prod.snd (fun p : Fin 32 × Fin 8 => loco.functions.getLsbD p.1) 5 _
    dirfLayout.cells 0#8 (by decide)

/-- `locoToFunExtByte` reads the functions of the block. -/
theorem locoToFunExtByte_eq (blockId : LocoFunExtBlockId) (loco : LocomotiveData) :
    locoToFunExtByte blockId loco = (funExtLayout blockId).gather loco.functions := by
  by_cases hthird : blockId = .third
  · rw [locoToFunExtByte, if_pos hthird, funExtLayout, if_pos hthird]
    show _ = setBit (setBit 0#8 5 (loco.getFunction 20)) 6 (loco.getFunction 28)
    cases loco.getFunction 20 <;> cases loco.getFunction 28 <;> rfl
  -- This encoder only sets bits, and it starts from an empty byte.
  · have hloop : ∀ is : List Nat,
        maskLoop (fun (result : Byte) i mask =>
            if loco.getFunction i then result ||| mask else result) is 1#8 0#8
          = is.zipIdx.foldl (fun word p => setBit word p.2 (loco.getFunction p.1)) 0#8 := by
      intro is
      have hclear := maskLoop_encode_of_clear loco.getFunction is 0 0#8 (by simp)
      rw [BitVec.shiftLeft_zero] at hclear
      rw [hclear, maskLoop_encode]
    rw [locoToFunExtByte, if_neg hthird, hloop, funExtLayout, if_neg hthird]
    -- The two blocks differ in the first function only.
    by_cases hfirst : blockId = .first
    · rw [funExtStartIdx, if_pos hfirst, if_pos hfirst]
      rfl
    · rw [funExtStartIdx, if_neg hfirst, if_neg hfirst]
      rfl

/-! ### What a function message does to a slot -/

/-- The functions of a layout written from a byte, with the changed ones flagged. -/
def SlotEntry.writeFunctions (l : BitLayout 8 32) (word : Byte) (entry : SlotEntry) :
    SlotEntry :=
  let functions := l.scatter word entry.loco.functions
  { entry with
      loco := { entry.loco with functions := functions }
      diff := { entry.diff with
        functions := entry.diff.functions ||| (functions ^^^ entry.loco.functions) } }

/-- The direction written, and flagged when it changed. -/
def SlotEntry.writeDirection (direction : EngineDirection) (entry : SlotEntry) : SlotEntry :=
  { entry with
      loco := { entry.loco with direction := direction }
      diff := { entry.diff with
        direction := entry.diff.direction || decide (direction ≠ entry.loco.direction) } }

/-- Writing the functions that are there already changes nothing. -/
theorem SlotEntry.writeFunctions_gather (l : BitLayout 8 32) (entry : SlotEntry) :
    entry.writeFunctions l (l.gather entry.loco.functions) = entry := by
  have hsame : l.scatter (l.gather entry.loco.functions) entry.loco.functions
      = entry.loco.functions := by
    rw [l.scatter_gather]
    exact l.merge_eq_of_gather_eq rfl
  simp only [SlotEntry.writeFunctions, hsame, BitVec.xor_self, BitVec.or_zero]

/-- Writing the same direction flags nothing. -/
theorem SlotEntry.writeDirection_self (entry : SlotEntry) :
    entry.writeDirection entry.loco.direction = entry := by
  simp [SlotEntry.writeDirection]

/-- The shape of the handlers that compare first: a write that is skipped when the received
byte is the gathered one. -/
theorem SlotEntry.writeFunctions_of_delta (l : BitLayout 8 32) (word : Byte)
    (entry : SlotEntry) :
    (if l.gather entry.loco.functions ^^^ word ≠ 0 then entry.writeFunctions l word else entry)
      = entry.writeFunctions l word := by
  split
  · rfl
  · next h =>
      have heq : l.gather entry.loco.functions = word :=
        BitVec.xor_eq_zero_iff.mp (Decidable.not_not.mp h)
      rw [← heq, SlotEntry.writeFunctions_gather]

/-- `OPC_LOCO_SND` writes F5 to F8 of the slot. -/
theorem SlotEntry.locoSnd_eq (msg : LocoSndMsg) (entry : SlotEntry) :
    entry.locoSnd msg kLowestFunctionInSndMessage = entry.writeFunctions sndLayout msg.snd := by
  rw [← SlotEntry.writeFunctions_of_delta, SlotEntry.locoSnd, locoToSnd_eq, sndToLoco_eq]
  rfl

/-- `OPC_LOCO_SND2` writes F9 to F12 of the slot. -/
theorem SlotEntry.locoSnd2_eq (msg : LocoSndMsg) (entry : SlotEntry) :
    entry.locoSnd msg (kLowestFunctionInSndMessage + kFunctionsInSndMessage)
      = entry.writeFunctions snd2Layout msg.snd := by
  rw [← SlotEntry.writeFunctions_of_delta, SlotEntry.locoSnd, locoToSnd2_eq, snd2ToLoco_eq]
  rfl

/-- `OPC_LOCO_FUNEXT` writes the functions of its block. -/
theorem SlotEntry.locoFunExt_eq (msg : MultiSenseDeviceInfoMsg) (entry : SlotEntry) :
    entry.locoFunExt msg = entry.writeFunctions (funExtLayout msg.arg3) msg.arg4 := by
  rw [SlotEntry.locoFunExt, SlotEntry.writeFunctions, funExtLayout]
  by_cases hthird : msg.arg3 = LocoFunExtBlockId.third
  -- Block THIRD has no loop: its two functions have masks of their own.
  · have h20 : decide (msg.arg4 &&& kFunExt20Mask ≠ 0) = msg.arg4.getLsbD 5 :=
      decide_and_shiftLeft_one msg.arg4 5
    have h28 : decide (msg.arg4 &&& kFunExt28Mask ≠ 0) = msg.arg4.getLsbD 6 :=
      decide_and_shiftLeft_one msg.arg4 6
    rw [if_pos hthird, if_pos hthird, h20, h28, BitVec.xor_comm]
    rfl
  · have hdecode := maskLoop_setFunction msg.arg4 (fun i => i)
    rw [if_neg hthird, if_neg hthird, hdecode, BitVec.xor_comm]
    by_cases hfirst : msg.arg3 = LocoFunExtBlockId.first
    · rw [funExtStartIdx, if_pos hfirst, if_pos hfirst]
      rfl
    · rw [funExtStartIdx, if_neg hfirst, if_neg hfirst]
      rfl

/-- The direction reads back. -/
theorem dirfDirection_locoToDirf (loco : LocomotiveData) :
    dirfDirection (locoToDirf loco) = loco.direction := by
  rw [dirfDirection, locoToDirf_eq, getLsbD_setBit_self _ (by decide)]
  cases loco.direction <;> rfl

/-- The direction bit does not disturb the functions of a direction byte. -/
theorem scatter_locoToDirf (loco : LocomotiveData) (functions : FunctionBits) :
    dirfLayout.scatter (locoToDirf loco) functions
      = dirfLayout.scatter (dirfLayout.gather loco.functions) functions := by
  rw [locoToDirf_eq]
  -- Bit 5 of the byte is in no cell of the layout.
  exact dirfLayout.scatter_setBit (show (5 : Fin 8) ∉ _ by decide) _ _ _

/-- The direction flag of `processLocoDirF` tells whether the direction changes. -/
theorem delta_and_dirMask (loco : LocomotiveData) (dirf : Byte) :
    decide ((locoToDirf loco ^^^ dirf) &&& kDirfDirMask ≠ 0)
      = decide (dirfDirection dirf ≠ loco.direction) := by
  have hmask := decide_and_shiftLeft_one (locoToDirf loco ^^^ dirf) 5
  have hbit : (locoToDirf loco).getLsbD 5 = decide (loco.direction = .reverse) := by
    rw [locoToDirf_eq, getLsbD_setBit_self _ (by decide)]
  refine hmask.trans ?_
  rw [BitVec.getLsbD_xor, hbit, dirfDirection]
  cases loco.direction <;> cases dirf.getLsbD 5 <;> rfl

/-- The direction byte also carries the direction, and its comparison covers both. -/
theorem SlotEntry.locoDirF_eq (msg : LocoDirfMsg) (entry : SlotEntry) :
    entry.locoDirF msg
      = (entry.writeDirection (dirfDirection msg.dirf)).writeFunctions dirfLayout msg.dirf := by
  by_cases hdelta : locoToDirf entry.loco ^^^ msg.dirf = 0
  · -- The received byte is the encoded state, so both writes change nothing.
    have hdirf : locoToDirf entry.loco = msg.dirf := BitVec.xor_eq_zero_iff.mp hdelta
    have hsame : entry.writeFunctions dirfLayout (locoToDirf entry.loco)
        = entry.writeFunctions dirfLayout (dirfLayout.gather entry.loco.functions) := by
      simp only [SlotEntry.writeFunctions, scatter_locoToDirf]
    rw [SlotEntry.locoDirF, if_neg (not_not.mpr hdelta), ← hdirf, dirfDirection_locoToDirf,
      SlotEntry.writeDirection_self, hsame, SlotEntry.writeFunctions_gather]
  · rw [SlotEntry.locoDirF, if_pos hdelta, delta_and_dirMask, dirfToLoco_eq]
    rfl

end C6021Light
