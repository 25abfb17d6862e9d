import C6021Light.Hal.SerialWrite

/-!
# `C6021Light.Proofs.SerialExpansion`: line ends on the serial line

`SerialWrite` publishes the expansion of its source: every line end is CR LF there, and every other
byte stands for itself. Each round of the loop publishes a piece of it (`writeRange_eq_some`). The
piece ends anywhere, also within a CR LF, whose rest is then sent on its own.

A round asks for one byte more than the rest of the source has when the source ends with a line
end. So the expansion of the rest always fills the range.
-/

set_option autoImplicit false

namespace C6021Light

open SerialOutput

/-- The string with each occurrence of a byte replaced. -/
def expand (search : Byte) (replace src : List Byte) : List Byte :=
  src.flatMap fun b => if b = search then replace else [b]

/-- What is assumed of `memcpyCharReplace`. It fills the destination with the longest beginning of
the expansion that fits. What it counts as consumed is what it wrote, and of a replacement that is
cut off the rest is told. -/
structure CopiesExpansion (memcpyCharReplace : MemcpyCharReplace) : Prop where
  written : ∀ src search replace destLen,
    (memcpyCharReplace src search replace destLen).written
      = (expand search replace src).take destLen
  len_le : ∀ src search replace destLen,
    (memcpyCharReplace src search replace destLen).len ≤ src.length
  whole : ∀ src search replace destLen,
    (memcpyCharReplace src search replace destLen).partialReplace = none →
      expand search replace (src.take (memcpyCharReplace src search replace destLen).len)
        = (memcpyCharReplace src search replace destLen).written
  cut : ∀ src search replace destLen k,
    (memcpyCharReplace src search replace destLen).partialReplace = some k →
      expand search replace (src.take (memcpyCharReplace src search replace destLen).len)
        = (memcpyCharReplace src search replace destLen).written ++ replace.drop k

/-! ### Expansions -/

variable {search : Byte}

/-- The expansion of two parts. -/
theorem expand_append (search : Byte) (replace src src' : List Byte) :
    expand search replace (src ++ src') = expand search replace src ++ expand search replace src' :=
  List.flatMap_append

/-- The expansion is longer than the source by one byte for each line end. -/
theorem length_expand (search : Byte) (src : List Byte) :
    (expand search replace src).length = src.length + src.count search := by
  induction src with
  | nil => rfl
  | cons b src ih =>
      have hcons : expand search replace (b :: src)
          = (if b = search then replace else [b]) ++ expand search replace src := rfl
      rw [hcons, List.length_append, ih, List.length_cons, List.count_cons]
      by_cases hb : b = search
      · have hbeq : (b == search) = true := beq_iff_eq.mpr hb
        rw [if_pos hb, if_pos hbeq, replace]
        simp only [List.length_cons, List.length_nil]
        omega
      · have hbeq : ¬ (b == search) = true := fun h => hb (beq_iff_eq.mp h)
        rw [if_neg hb, if_neg hbeq, List.length_singleton]
        omega

/-- What is published for a source, with or without replacement. -/
def expansion (search : Byte) (doReplace : Bool) (src : List Byte) : List Byte :=
  if doReplace then expand search replace src else src

/-- The expansion of two parts, with or without replacement. -/
theorem expansion_append (search : Byte) (doReplace : Bool) (src src' : List Byte) :
    expansion search doReplace (src ++ src')
      = expansion search doReplace src ++ expansion search doReplace src' := by
  cases doReplace with
  | true => exact expand_append search replace src src'
  | false => rfl

/-- Nothing expands to nothing. -/
theorem expansion_nil (search : Byte) (doReplace : Bool) : expansion search doReplace [] = [] := by
  cases doReplace <;> rfl

/-- The expansion of the rest of a source has room for what is asked for. -/
theorem request_le_length_expansion (search : Byte) {src : List Byte} {srcBytesConsumed : Nat}
    (hmore : srcBytesConsumed < src.length) (doReplace : Bool) :
    src.length - srcBytesConsumed
        + (if doReplace && src.getLast? = some search then replaceLen - 1 else 0)
      ≤ (expansion search doReplace (src.drop srcBytesConsumed)).length := by
  cases doReplace with
  | false => exact Nat.le_of_eq List.length_drop.symm
  | true =>
      show _ ≤ (expand search replace (src.drop srcBytesConsumed)).length
      rw [length_expand, List.length_drop, Bool.true_and]
      split
      · rename_i hlast
        have hmem : search ∈ src.drop srcBytesConsumed := by
          rw [decide_eq_true_eq] at hlast
          have hdrop : (src.drop srcBytesConsumed).getLast? = some search := by
            rw [List.getLast?_drop, if_neg (by omega), hlast]
          exact List.mem_of_getLast? hdrop
        have hcount := List.count_pos_iff.mpr hmem
        show _ + 1 ≤ _
        omega
      · omega

/-! ### One round -/

variable {memcpyCharReplace : MemcpyCharReplace} {doReplace : Bool} {src : List Byte}
  {srcBytesConsumed : Nat} {output : SerialOutput}

/-- The rest of a replacement that was cut off. -/
def cutOff (partialReplace : Option Nat) : List Byte :=
  match partialReplace with
  | some written => replace.drop written
  | none => []

/-- A piece of the expansion: with the rest of a replacement that it cuts off it is that of the
source bytes that it consumes. -/
structure IsPiece (search : Byte) (doReplace : Bool) (rest : List Byte) (len : Nat)
    (result : Nat × Option Nat) (piece : List Byte) : Prop where
  length_eq : piece.length = len
  consumed_le : result.1 ≤ rest.length
  expands : piece ++ cutOff result.2 = expansion search doReplace (rest.take result.1)

/-- What follows a piece is the expansion of the bytes behind those that it consumes. -/
theorem IsPiece.append_rest {len : Nat} {result : Nat × Option Nat} {piece : List Byte}
    (h : IsPiece search doReplace (src.drop srcBytesConsumed) len result piece) :
    piece ++ (cutOff result.2
        ++ expansion search doReplace (src.drop (srcBytesConsumed + result.1)))
      = expansion search doReplace (src.drop srcBytesConsumed) := by
  rw [← List.append_assoc, h.expands, ← List.drop_drop, ← expansion_append,
    List.take_append_drop]

/-- Bytes that fill the range are all of it. -/
theorem rangeOf_of_length {len : Nat} {written : List Byte} (h : written.length = len) :
    rangeOf len written = written.map some := by
  rw [rangeOf, h, Nat.sub_self, List.replicate_zero, List.append_nil]

/-- `memcpyCharReplace` writes a piece, when it has no more room than the expansion is long. -/
theorem isPiece_memcpyCharReplace (hcopy : CopiesExpansion memcpyCharReplace) {rest : List Byte}
    {dest : Nat} (hroom : dest ≤ (expand search replace rest).length) :
    IsPiece search true rest dest
      ((memcpyCharReplace rest search replace dest).len,
        (memcpyCharReplace rest search replace dest).partialReplace)
      (memcpyCharReplace rest search replace dest).written where
  length_eq := by rw [hcopy.written, List.length_take, Nat.min_eq_left hroom]
  consumed_le := hcopy.len_le rest search replace dest
  expands := by
    cases hcutOff : (memcpyCharReplace rest search replace dest).partialReplace with
    | none => exact (List.append_nil _).trans (hcopy.whole _ _ _ _ hcutOff).symm
    | some written => exact (hcopy.cut _ _ _ _ written hcutOff).symm

/-- What a round does with the range that it gets. -/
theorem writeRange_run {grant : Nat} {grants : List Nat} {published : List (List (Option Byte))}
    {dest : Nat}
    (hdest : dest = min grant (src.length - srcBytesConsumed
      + (if doReplace && src.getLast? = some search then replaceLen - 1 else 0))) :
    (writeRange memcpyCharReplace search doReplace src srcBytesConsumed).run
        { grants := grant :: grants, published := published }
      = if 0 < dest then
          if doReplace then
            let result := memcpyCharReplace (src.drop srcBytesConsumed) search replace dest
            some ((result.len, result.partialReplace),
              { grants := grants, published := published ++ [rangeOf dest result.written] })
          else
            some ((dest, none),
              { grants := grants
                published :=
                  published ++ [rangeOf dest ((src.drop srcBytesConsumed).take dest)] })
        else some ((0, none), { grants := grants, published := published }) := by
  have hallocate : (allocate (src.length - srcBytesConsumed
      + (if doReplace && src.getLast? = some search then replaceLen - 1 else 0))).run
        { grants := grant :: grants, published := published }
      = some (dest, { grants := grants, published := published }) := by
    rw [hdest]
    rfl
  rw [writeRange, StateT.run_bind, hallocate, Option.bind_eq_bind, Option.bind_some]
  split
  · split <;> rfl
  · rfl

/-- A round publishes one piece, or nothing when it gets no room. -/
theorem exists_writeRange (hcopy : CopiesExpansion memcpyCharReplace) (search : Byte)
    (doReplace : Bool) (hmore : srcBytesConsumed < src.length) {grant : Nat} {grants : List Nat}
    (hgrants : output.grants = grant :: grants) :
    ∃ result piece published len,
      (writeRange memcpyCharReplace search doReplace src srcBytesConsumed).run output
        = some (result, { grants := grants, published := published }) ∧
      published.flatten = output.published.flatten ++ piece.map some ∧
      IsPiece search doReplace (src.drop srcBytesConsumed) len result piece ∧
      (0 < grant → 0 < len) := by
  obtain ⟨_, published⟩ := output
  cases hgrants
  have hroom := request_le_length_expansion search hmore doReplace
  have hrest : 0 < (src.drop srcBytesConsumed).length := by
    rw [List.length_drop]
    omega
  -- What the buffer grants, or what the round asks for when that is less.
  obtain ⟨dest, hdest⟩ : ∃ dest, dest = min grant (src.length - srcBytesConsumed
      + (if doReplace && src.getLast? = some search then replaceLen - 1 else 0)) := ⟨_, rfl⟩
  have hlong : dest ≤ (expansion search doReplace (src.drop srcBytesConsumed)).length := by omega
  have hgrant : 0 < grant → 0 < dest := by omega
  rw [writeRange_run hdest]
  -- An empty range publishes nothing.
  split
  -- With the replacement the copy is that of `memcpyCharReplace`, without it that of `memcpy`.
  · split
    · rename_i hreplace
      subst hreplace
      have hpiece := isPiece_memcpyCharReplace hcopy hlong
      refine ⟨_, _, _, dest, rfl, ?_, hpiece, hgrant⟩
      rw [List.flatten_concat, rangeOf_of_length hpiece.length_eq]
    · rename_i hreplace
      have hfalse := eq_false_of_ne_true hreplace
      subst hfalse
      have hlength : ((src.drop srcBytesConsumed).take dest).length = dest :=
        List.length_take_of_le hlong
      refine ⟨_, _, _, dest, rfl, ?_, ⟨hlength, hlong, List.append_nil _⟩, hgrant⟩
      rw [List.flatten_concat, rangeOf_of_length hlength]
  · rename_i hnone
    refine ⟨_, [], _, dest, rfl, (List.append_nil _).symm, ⟨?_, Nat.zero_le _, ?_⟩, hgrant⟩
    · exact (Nat.eq_zero_of_not_pos hnone).symm
    · exact (expansion_nil search doReplace).symm

/-! ### The loop -/

/-- The rest of a replacement, sent as it is. -/
def sendCutOff (memcpyCharReplace : MemcpyCharReplace) (search : Byte) (fuel : Nat)
    (partialReplace : Option Nat) (output : SerialOutput) : Option SerialOutput :=
  match partialReplace with
  | some written =>
      ((serialWriteLoop memcpyCharReplace search fuel false (replace.drop written) 0).run
        output).map Prod.snd
  | none => some output

/-- A round of the loop, and what follows it. -/
theorem serialWriteLoop_round {fuel : Nat} {result : Nat × Option Nat} {output₁ : SerialOutput}
    (hmore : srcBytesConsumed < src.length)
    (hround : (writeRange memcpyCharReplace search doReplace src srcBytesConsumed).run output
      = some (result, output₁)) :
    (serialWriteLoop memcpyCharReplace search (fuel + 1) doReplace src srcBytesConsumed).run output
      = (sendCutOff memcpyCharReplace search fuel result.2 output₁).bind fun output₂ =>
          (serialWriteLoop memcpyCharReplace search fuel doReplace src
            (srcBytesConsumed + result.1)).run output₂ := by
  obtain ⟨bytesConsumed, partialReplace⟩ := result
  rw [serialWriteLoop, if_pos hmore, StateT.run_bind, hround]
  cases partialReplace with
  | none => rfl
  | some written =>
      rw [sendCutOff, Option.bind_map]
      rfl

/-- The loop ends when all bytes are consumed. -/
theorem serialWriteLoop_done {fuel : Nat} (hdone : ¬ srcBytesConsumed < src.length) :
    (serialWriteLoop memcpyCharReplace search (fuel + 1) doReplace src srcBytesConsumed).run output
      = some (srcBytesConsumed, output) := by
  rw [serialWriteLoop, if_neg hdone]
  rfl

/-- Without room the loop does not go on. -/
theorem serialWriteLoop_nil {fuel : Nat} (hmore : srcBytesConsumed < src.length)
    (hgrants : output.grants = []) :
    (serialWriteLoop memcpyCharReplace search (fuel + 1) doReplace src srcBytesConsumed).run output
      = none := by
  obtain ⟨_, published⟩ := output
  cases hgrants
  rw [serialWriteLoop, if_pos hmore]
  rfl

/-- Without replacement the source is its expansion. -/
theorem expansion_false (src : List Byte) : expansion search false src = src := rfl

/-- When the loop returns it has published the expansion of the rest of the source. -/
theorem serialWriteLoop_eq_some (hcopy : CopiesExpansion memcpyCharReplace) (fuel : Nat) :
    ∀ (doReplace : Bool) (src : List Byte) (srcBytesConsumed : Nat) (output output' : SerialOutput)
      (n : Nat), srcBytesConsumed ≤ src.length →
      (serialWriteLoop memcpyCharReplace search fuel doReplace src srcBytesConsumed).run output
        = some (n, output') →
      n = src.length ∧
        output'.published.flatten = output.published.flatten
          ++ (expansion search doReplace (src.drop srcBytesConsumed)).map some := by
  -- The induction is on the fuel. It is used by the loop over the rest of the replacement as well.
  induction fuel with
  | zero => intro _ _ _ _ _ _ _ hrun; cases hrun
  | succ fuel ih =>
      intro doReplace src srcBytesConsumed output output' n hle hrun
      by_cases hmore : srcBytesConsumed < src.length
      · cases hgrants : output.grants with
        | nil => rw [serialWriteLoop_nil hmore hgrants] at hrun; cases hrun
        | cons grant grants =>
            obtain ⟨result, piece, published, len, hround, hpublished, hpiece, -⟩ :=
              exists_writeRange hcopy search doReplace hmore hgrants
            rw [serialWriteLoop_round hmore hround] at hrun
            obtain ⟨output₂, hcut, hrest⟩ := Option.bind_eq_some_iff.mp hrun
            -- What was cut off of the replacement is sent by a loop of its own, without replacing.
            have hsent : output₂.published.flatten
                = published.flatten ++ (cutOff result.2).map some := by
              cases hcutOff : result.2 with
              | none =>
                  rw [hcutOff] at hcut
                  cases hcut
                  exact (List.append_nil _).symm
              | some written =>
                  rw [hcutOff] at hcut
                  obtain ⟨⟨_, _⟩, hloop, rfl⟩ := Option.map_eq_some_iff.mp hcut
                  exact (ih false _ 0 _ _ _ (Nat.zero_le _) hloop).2
            -- The next round goes on behind what was consumed.
            have hconsumed := hpiece.consumed_le
            rw [List.length_drop] at hconsumed
            obtain ⟨hn, hlater⟩ := ih doReplace src _ _ _ _ (by omega) hrest
            refine ⟨hn, ?_⟩
            rw [hlater, hsent, hpublished, ← hpiece.append_rest, List.map_append, List.map_append,
              List.append_assoc, List.append_assoc]
      -- The source is used up.
      · rw [serialWriteLoop_done hmore] at hrun
        cases hrun
        have hend : srcBytesConsumed = src.length := Nat.le_antisymm hle (Nat.le_of_not_lt hmore)
        subst hend
        rw [List.drop_length, expansion_nil]
        exact ⟨rfl, (List.append_nil _).symm⟩

/-- The ranges that are not empty. -/
def room (output : SerialOutput) : Nat := output.grants.countP (0 < ·)

/-- With room for each byte of the expansion the loop returns. -/
theorem exists_serialWriteLoop (hcopy : CopiesExpansion memcpyCharReplace) (fuel : Nat) :
    ∀ (doReplace : Bool) (src : List Byte) (srcBytesConsumed : Nat) (output : SerialOutput),
      srcBytesConsumed ≤ src.length → output.grants.length < fuel →
      (expansion search doReplace (src.drop srcBytesConsumed)).length ≤ room output →
      ∃ n output',
        (serialWriteLoop memcpyCharReplace search fuel doReplace src srcBytesConsumed).run output
          = some (n, output') ∧
        output'.grants.length ≤ output.grants.length ∧
        room output
          ≤ room output' + (expansion search doReplace (src.drop srcBytesConsumed)).length := by
  induction fuel with
  | zero => intro _ _ _ _ _ hfuel _; exact absurd hfuel (Nat.not_lt_zero _)
  | succ fuel ih =>
      intro doReplace src srcBytesConsumed output hle hfuel hroom
      by_cases hmore : srcBytesConsumed < src.length
      · cases hgrants : output.grants with
        | nil =>
            -- There are bytes left, but there is no room.
            have hnone : room output = 0 := by rw [room, hgrants, List.countP_nil]
            have hbytes := request_le_length_expansion search hmore doReplace
            omega
        | cons grant grants =>
            rw [hgrants, List.length_cons] at hfuel
            rw [List.length_cons]
            obtain ⟨result, piece, published, len, hround, -, hpiece, hpos⟩ :=
              exists_writeRange hcopy search doReplace hmore hgrants
            have hlength := congrArg List.length hpiece.append_rest
            rw [List.length_append, List.length_append, hpiece.length_eq] at hlength
            have hconsumed := hpiece.consumed_le
            rw [List.length_drop] at hconsumed
            have hcount : room output
                ≤ room { grants := grants, published := published } + len := by
              rw [room, hgrants, List.countP_cons]
              refine Nat.add_le_add_left ?_ _
              split
              · rename_i hgrant
                exact hpos (of_decide_eq_true hgrant)
              · exact Nat.zero_le _
            -- First the rest of a replacement, then the rest of the source.
            have hcut : ∃ output₂, sendCutOff memcpyCharReplace search fuel result.2
                  { grants := grants, published := published } = some output₂ ∧
                output₂.grants.length ≤ grants.length ∧
                room { grants := grants, published := published }
                  ≤ room output₂ + (cutOff result.2).length := by
              cases hcutOff : result.2 with
              | none => exact ⟨_, rfl, Nat.le_refl _, Nat.le_add_right _ _⟩
              | some written =>
                  rw [hcutOff] at hlength
                  obtain ⟨n, output₂, hrun, hlen₂, hroom₂⟩ := ih false (cutOff (some written)) 0
                    { grants := grants, published := published } (Nat.zero_le _)
                    (by show grants.length < fuel; omega)
                    (by rw [expansion_false, List.drop_zero]; omega)
                  rw [expansion_false, List.drop_zero] at hroom₂
                  refine ⟨output₂, ?_, hlen₂, hroom₂⟩
                  exact Option.map_eq_some_iff.mpr ⟨_, hrun, rfl⟩
            obtain ⟨output₂, hsent, hlen₂, hroom₂⟩ := hcut
            obtain ⟨n, output', hrest, hlen', hroom'⟩ := ih doReplace src
              (srcBytesConsumed + result.1) output₂ (by omega) (by omega) (by omega)
            refine ⟨n, output', ?_, by omega, by omega⟩
            rw [serialWriteLoop_round hmore hround, hsent]
            exact hrest
      · exact ⟨_, _, serialWriteLoop_done hmore, Nat.le_refl _, Nat.le_add_right _ _⟩

/-! ### `SerialWrite` -/

/-- The inner function consumes its whole source, so the outer loop calls it once. -/
theorem serialWrite_eq_some (hcopy : CopiesExpansion memcpyCharReplace) {fuel n : Nat}
    {output' : SerialOutput}
    (hrun : (serialWrite memcpyCharReplace search fuel src).run output = some (n, output')) :
    n = src.length ∧
      output'.published.flatten
        = output.published.flatten ++ (expand search replace src).map some := by
  cases fuel with
  | zero => cases hrun
  | succ fuel =>
      rw [serialWrite, serialWriteRest] at hrun
      split at hrun
      · rw [StateT.run_bind] at hrun
        obtain ⟨⟨bytesWritten, output₁⟩, hloop, hrest⟩ := Option.bind_eq_some_iff.mp hrun
        obtain ⟨rfl, hpublished⟩ :=
          serialWriteLoop_eq_some hcopy fuel true src 0 _ _ _ (Nat.zero_le _) hloop
        rw [List.drop_length] at hrest
        cases fuel with
        | zero => cases hrest
        | succ fuel =>
            cases hrest
            exact ⟨rfl, hpublished⟩
      · rename_i hempty
        have hnil : src = [] := List.length_eq_zero_iff.mp (Nat.eq_zero_of_not_pos hempty)
        subst hnil
        cases hrun
        exact ⟨rfl, (List.append_nil _).symm⟩

/-- With room for the expansion the write returns, and has consumed the source. -/
theorem exists_serialWrite (hcopy : CopiesExpansion memcpyCharReplace) (src : List Byte)
    (output : SerialOutput) (hroom : (expand search replace src).length ≤ room output) :
    ∃ fuel output', (serialWrite memcpyCharReplace search fuel src).run output
      = some (src.length, output') := by
  by_cases hmore : 0 < src.length
  · obtain ⟨n, output', hloop, -⟩ := exists_serialWriteLoop hcopy (output.grants.length + 1) true
      src 0 output (Nat.zero_le _) (Nat.lt_succ_self _) hroom
    have hn := (serialWriteLoop_eq_some hcopy _ true src 0 _ _ _ (Nat.zero_le _) hloop).1
    subst hn
    refine ⟨output.grants.length + 2, output', ?_⟩
    rw [serialWrite, serialWriteRest, if_pos hmore, StateT.run_bind, hloop]
    show (serialWriteRest _ _ _ (src.drop src.length) _).run output' = _
    rw [List.drop_length]
    rfl
  · have hnil : src = [] := List.length_eq_zero_iff.mp (Nat.eq_zero_of_not_pos hmore)
    subst hnil
    exact ⟨1, output, rfl⟩

/-- Whenever `SerialWrite` returns, the published ranges are the expansion of the source, every
range is filled, and the result is the length of the source. It returns when there is room for
each byte. -/
theorem serialWrite_expands (hcopy : CopiesExpansion memcpyCharReplace) (search : Byte)
    (src : List Byte) (grants : List Nat) :
    (∀ (fuel n : Nat) (output' : SerialOutput),
      (serialWrite memcpyCharReplace search fuel src).run { grants := grants }
        = some (n, output') →
      output'.published.flatten = (expand search replace src).map some ∧
        (∀ range ∈ output'.published, none ∉ range) ∧ n = src.length) ∧
    ((expand search replace src).length ≤ grants.countP (0 < ·) →
      ∃ fuel output', (serialWrite memcpyCharReplace search fuel src).run { grants := grants }
        = some (src.length, output')) := by
  refine ⟨fun fuel n output' hrun => ?_, fun hroom => exists_serialWrite hcopy src _ hroom⟩
  obtain ⟨hn, hpublished⟩ := serialWrite_eq_some hcopy hrun
  rw [List.flatten_nil, List.nil_append] at hpublished
  refine ⟨hpublished, fun range hrange hnone => ?_, hn⟩
  -- Everything that was published is a byte of the expansion, so no range has a gap.
  have hmem : none ∈ output'.published.flatten := List.mem_flatten.mpr ⟨range, hrange, hnone⟩
  rw [hpublished, List.mem_map] at hmem
  obtain ⟨_, _, hbyte⟩ := hmem
  cases hbyte

/-! ### A copy -/

/-- A `memcpyCharReplace` that copies byte by byte. -/
def copyBytes : MemcpyCharReplace
  | [], _, _, _ => { written := [], len := 0, partialReplace := none }
  | b :: src, search, replacement, destLen =>
      let bytes := if b = search then replacement else [b]
      if bytes.length ≤ destLen then
        let rest := copyBytes src search replacement (destLen - bytes.length)
        { rest with written := bytes ++ rest.written, len := rest.len + 1 }
      else if destLen = 0 then { written := [], len := 0, partialReplace := none }
      else { written := bytes.take destLen, len := 1, partialReplace := some destLen }

/-- The copy is a beginning of the expansion, and with the rest of a replacement that is cut off
it is the expansion of what was consumed. -/
theorem copyBytes_spec (search : Byte) (replacement src : List Byte) :
    ∀ destLen : Nat,
      let result := copyBytes src search replacement destLen
      result.written = (expand search replacement src).take destLen ∧
        result.len ≤ src.length ∧
        expand search replacement (src.take result.len)
          = result.written ++ (result.partialReplace.elim [] replacement.drop) := by
  induction src with
  | nil => intro destLen; exact ⟨List.take_nil.symm, Nat.le_refl 0, rfl⟩
  | cons b src ih =>
      intro destLen
      obtain ⟨bytes, hbytes⟩ : ∃ bytes, bytes = if b = search then replacement else [b] :=
        ⟨_, rfl⟩
      have hcons : ∀ rest, expand search replacement (b :: rest)
          = bytes ++ expand search replacement rest := fun rest => by
        rw [hbytes]
        rfl
      simp only [copyBytes, hcons, ← hbytes]
      split
      · rename_i hfits
        obtain ⟨hwritten, hlen, hexpand⟩ := ih (destLen - bytes.length)
        refine ⟨?_, Nat.succ_le_succ hlen, ?_⟩
        · rw [hwritten, List.take_append, List.take_of_length_le hfits]
        · rw [List.take_succ_cons, hcons, hexpand, List.append_assoc]
      · rename_i hcut
        split
        · rename_i hzero
          subst hzero
          exact ⟨rfl, Nat.zero_le _, rfl⟩
        · rename_i hpos
          have hle := Nat.le_of_not_le hcut
          refine ⟨(List.take_append_of_le_length hle).symm, Nat.succ_le_succ (Nat.zero_le _), ?_⟩
          -- A single byte is not cut off, so this is a replacement.
          have hreplace : bytes = replacement := by
            by_cases hb : b = search
            · rw [hbytes, if_pos hb]
            · rw [hbytes, if_neg hb, List.length_singleton] at hcut
              omega
          rw [List.take_succ_cons, hcons, List.take_zero, hreplace]
          exact (List.append_nil _).trans (List.take_append_drop destLen replacement).symm

/-- The copy by hand is an instance of the assumption. -/
theorem copiesExpansion_copyBytes : CopiesExpansion copyBytes where
  written src search replacement destLen := (copyBytes_spec search replacement src destLen).1
  len_le src search replacement destLen := (copyBytes_spec search replacement src destLen).2.1
  whole src search replacement destLen hnone := by
    have hexpand := (copyBytes_spec search replacement src destLen).2.2
    rw [hnone] at hexpand
    exact hexpand.trans (List.append_nil _)
  cut src search replacement destLen k hcut := by
    have hexpand := (copyBytes_spec search replacement src destLen).2.2
    rw [hcut] at hexpand
    exact hexpand

/-- "a" and two line ends, with ranges that cut each CR LF. -/
theorem serialWrite_expands_lines :
    ∃ output', (serialWrite copyBytes 0x0A 9 [0x61, 0x0A, 0x0A]).run { grants := [2, 0, 7, 1, 1] }
        = some (3, output') ∧
      output'.published.flatten
        = [some 0x61, some 0x0D, some 0x0A, some 0x0D, some 0x0A] := by
  refine ⟨_, rfl, ?_⟩
  exact ((serialWrite_expands copiesExpansion_copyBytes 0x0A [0x61, 0x0A, 0x0A] [2, 0, 7, 1, 1]).1
    9 3 _ rfl).1

end C6021Light
