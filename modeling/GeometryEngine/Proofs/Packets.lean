import GeometryEngine.Ledger
import GeometryEngine.Session
import GeometryEngine.Proofs.Instructions
import Mathlib.Algebra.Group.Nat.Defs

/-!
# Packed instructions are carried out like plain ones

The packed path keeps the numbers of a packet in one word, which it shifts as it goes.
An empty byte at the end of a packet cannot be told from the instruction that does
nothing, and need not be: what matters is that a word without any bit set holds nothing
but such instructions (`Packet.id_eq_zero_of_header`).

* `FrontEnd.writes_packet`: behind the word of a packet its parameters complete one
  instruction after the other, and those without parameters are carried out in between;
* `FrontEnd.writePackets_eq_writePlain`: so packets do what their instructions do on the
  plain path, to the front-end as well as to whoever receives its commands;
* `FrontEnd.IsCounted.call`: unless a fault has interrupted the packed path, no
  parameters are counted when no packed instruction is left.
-/

namespace GeometryEngine

/-! ### The word of a packet -/

/-- The instruction with the number `0` has no parameters and does nothing. -/
theorem Encoded.eq_nothing_of_id {e : Encoded} (complete : e.isComplete = true)
    (h : e.id = 0) : e.parameters = [] ∧ e.meaning = .nothing := by
  obtain ⟨id, ws⟩ := e
  cases h
  rw [isComplete, beq_iff_eq] at complete
  exact ⟨List.eq_nil_of_length_eq_zero complete, rfl⟩

namespace Packet

theorem number_lt (p : Packet) :
    p.foldr (fun e n => 256 * n + e.id.toNat) 0 < 256 ^ p.length := by
  induction p with
  | nil => exact Nat.one_pos
  | cons e p ih =>
    have := e.id.toNat_lt
    rw [List.foldr_cons, List.length_cons, Nat.pow_succ]
    omega

/-- The first instruction is in the lowest byte. -/
theorem toUInt8_header (e : Encoded) (p : Packet) : (header (e :: p)).toUInt8 = e.id := by
  apply UInt8.toNat_inj.1
  have := e.id.toNat_lt
  simp only [header, List.foldr_cons, UInt32.toNat_toUInt8, UInt32.toNat_ofNat']
  omega

/-- The others are in the bytes above it. -/
theorem header_shiftRight {e : Encoded} {p : Packet} (short : (e :: p).length ≤ 4) :
    header (e :: p) >>> 8 = header p := by
  have all := number_lt (e :: p)
  have fits : 256 ^ (e :: p).length ≤ 256 ^ 4 := Nat.pow_le_pow_right (by decide) short
  have byte := e.id.toNat_lt
  apply UInt32.toNat_inj.1
  simp only [header, List.foldr_cons, UInt32.toNat_shiftRight, UInt32.toNat_ofNat',
    Nat.shiftRight_eq_div_pow] at all ⊢
  simp
  omega

/-- A word without any bit set only holds instructions that do nothing. -/
theorem id_eq_zero_of_header {p : Packet} (short : p.length ≤ 4) (h : header p = 0) :
    ∀ e ∈ p, e.id = 0 := by
  induction p with
  | nil => simp
  | cons e p ih =>
    have rest : header p = 0 := by
      rw [← header_shiftRight short, h]
      rfl
    have first : e.id = 0 := by
      rw [← toUInt8_header e p, h]
      rfl
    exact List.forall_mem_cons.2 ⟨first, ih (Nat.le_of_succ_le short) rest⟩

end Packet

section

variable {σ : Type} [Sink σ]

namespace FrontEnd

variable {fe : FrontEnd} {us ws : List UInt32}

/-! ### Packed parameters -/

theorem skipPacked_of_parameters (fe : FrontEnd)
    (h : fe.packed = 0 ∨ Instruction.parameters fe.nextPacked ≠ 0) (n : Nat) (s : σ) :
    skipPacked n fe s = ⟨fe, s, none⟩ := by
  cases n with
  | zero => rfl
  | succ n =>
    rw [skipPacked, if_neg]
    rintro ⟨packed, none⟩
    exact h.elim packed fun some => some none

theorem toNat_packedParameters_succ
    (few : fe.packedParameters.toNat < Instruction.parameters fe.nextPacked) :
    (fe.packedParameters + 1).toNat = fe.packedParameters.toNat + 1 := by
  have := Instruction.parameters_le fe.nextPacked
  rw [UInt8.toNat_add, UInt8.toNat_one]
  exact Nat.mod_eq_of_lt (by omega)

/-- A parameter that leaves others missing waits with those before it. -/
theorem writePacked_of_lt (before : fe.pending = us.map (Entry.mk fe.nextPacked))
    (counted : fe.packedParameters.toNat = us.length) (packed : fe.packed ≠ 0) (w : UInt32)
    (few : us.length + 1 < Instruction.parameters fe.nextPacked) (s : σ) :
    fe.writePacked s w =
      ⟨{ fe with
          pending := (us ++ [w]).map (Entry.mk fe.nextPacked)
          packedParameters := fe.packedParameters + 1 }, s, none⟩ := by
  have count := toNat_packedParameters_succ (counted ▸ Nat.lt_of_succ_lt few)
  have more : (fe.packedParameters + 1).toNat ≠ Instruction.parameters fe.nextPacked :=
    count ▸ counted ▸ Nat.ne_of_lt few
  have some_parameter : Instruction.parameters fe.nextPacked ≠ 0 :=
    Nat.ne_of_gt (Nat.zero_lt_of_lt few)
  have written : fe.writeParameter s w =
      ⟨{ fe with
          pending := (us ++ [w]).map (Entry.mk fe.nextPacked)
          packedParameters := fe.packedParameters + 1 }, s, none⟩ := by
    rw [writeParameter, write_of_lt before w few]
    exact if_neg more
  rw [writePacked, if_neg packed, written]
  refine skipPacked_of_parameters _ (.inr ?_) 4 s
  exact some_parameter

/-- With its last parameter an instruction is carried out, and those behind it that
    have none. -/
theorem writePacked_of_eq (before : fe.pending = us.map (Entry.mk fe.nextPacked))
    (counted : fe.packedParameters.toNat = us.length) (packed : fe.packed ≠ 0) (w : UInt32)
    (last : us.length + 1 = Instruction.parameters fe.nextPacked) (s : σ) :
    fe.writePacked s w =
      ((fe.registers.execute s (.decode fe.nextPacked (us ++ [w]))).map fun r =>
          { fe with pending := [], registers := r }).andThen
        fun fe s => skipPacked 4 { fe.dropPacked with packedParameters := 0 } s := by
  have all : (fe.packedParameters + 1).toNat = Instruction.parameters fe.nextPacked := by
    rw [toNat_packedParameters_succ (counted ▸ Nat.lt_of_succ_le (Nat.le_of_eq last)), counted,
      last]
  have enough : us.length + 1 = entries fe.nextPacked := by
    rw [entries, ← last]
    omega
  rw [writePacked, if_neg packed, writeParameter, write_of_eq before w enough,
    Outcome.andThen_assoc]
  generalize fe.registers.execute s (.decode fe.nextPacked (us ++ [w])) = o
  obtain ⟨r, s, fault⟩ := o
  cases fault with
  | some f => rfl
  | none => exact congrArg (fun o : Outcome FrontEnd σ => o.andThen (skipPacked 4)) (if_pos all)

/-- If the parameters that wait, and those that come first now, are all parameters of
    the next packed instruction, then it is carried out, and what is written after it
    is `next`. -/
theorem writes_parameters (before : fe.pending = us.map (Entry.mk fe.nextPacked))
    (counted : fe.packedParameters.toNat = us.length) (packed : fe.packed ≠ 0)
    (some_word : ws ≠ []) (all : us.length + ws.length = Instruction.parameters fe.nextPacked)
    {rest : List UInt32} {next : Registers → σ → Outcome Registers σ}
    (h : ∀ r s, Writes ((skipPacked 4 { packed := fe.packed >>> 8, registers := r } s).andThen
      fun fe s => fe.writeWords s rest) (next r s)) (s : σ) :
    Writes (fe.writeWords s (ws ++ rest))
      ((fe.registers.execute s (.decode fe.nextPacked (us ++ ws))).andThen next) := by
  induction ws generalizing fe us with
  | nil => exact absurd rfl some_word
  | cons w ws ih =>
    rw [List.cons_append, writeWords]
    cases ws with
    | nil =>
      rw [writePacked_of_eq before counted packed w all, Outcome.andThen_assoc]
      exact Writes.map_andThen (fun _ => rfl) h
    | cons v ws =>
      simp only [List.length_cons] at all
      have few : us.length + 1 < Instruction.parameters fe.nextPacked := by omega
      have count : (fe.packedParameters + 1).toNat = (us ++ [w]).length := by
        rw [toNat_packedParameters_succ (counted ▸ Nat.lt_of_succ_lt few), counted,
          List.length_append, List.length_singleton]
      have left : (us ++ [w]).length + (v :: ws).length =
          Instruction.parameters fe.nextPacked := by
        simp only [List.length_append, List.length_cons, List.length_nil]
        omega
      let waiting : FrontEnd := { fe with
        pending := (us ++ [w]).map (Entry.mk fe.nextPacked)
        packedParameters := fe.packedParameters + 1 }
      have later : Writes (waiting.writeWords s (v :: ws ++ rest))
          ((fe.registers.execute s (.decode fe.nextPacked (us ++ [w] ++ v :: ws))).andThen next) :=
        ih rfl count packed (List.cons_ne_nil v ws) left h
      rw [List.append_assoc] at later
      rw [writePacked_of_lt before counted packed w few]
      exact later

/-! ### Packets -/

/-- After the word of a packet, its parameters carry out its instructions. Of those
    without parameters, as many may be skipped at once as there are instructions. -/
theorem writes_packet {p : Packet} (short : p.length ≤ 4)
    (complete : ∀ e ∈ p, e.isComplete = true) {n : Nat} (enough : p.length ≤ n) (r : Registers)
    (s : σ) :
    Writes ((skipPacked n { packed := p.header, registers := r } s).andThen fun fe s =>
        fe.writeWords s (p.flatMap Encoded.parameters))
      (r.executeAll s (p.map Encoded.meaning)) := by
  induction p generalizing n r s with
  | nil =>
    rw [skipPacked_of_parameters _ (.inl rfl)]
    exact .done ⟨rfl, rfl, rfl⟩ s
  | cons e p ih =>
    by_cases empty : Packet.header (e :: p) = 0
    · -- Nothing is left to be done, and nothing is done.
      have bare : ∀ d ∈ e :: p, d.parameters = [] ∧ d.meaning = .nothing := fun d hd =>
        Encoded.eq_nothing_of_id (complete d hd) (Packet.id_eq_zero_of_header short empty d hd)
      have words : (e :: p).flatMap Encoded.parameters = [] :=
        List.flatMap_eq_nil_iff.2 fun d hd => (bare d hd).1
      have idle : ∀ i ∈ (e :: p).map Encoded.meaning, i = .nothing :=
        List.forall_mem_map.2 fun d hd => (bare d hd).2
      rw [skipPacked_of_parameters _ (.inl empty), words, Registers.executeAll_nothing idle]
      exact .done ⟨rfl, empty, rfl⟩ s
    · obtain ⟨first, rest⟩ := List.forall_mem_cons.1 complete
      have shift := Packet.header_shiftRight short
      let fe : FrontEnd := { packed := Packet.header (e :: p), registers := r }
      have next : fe.nextPacked = e.id := Packet.toUInt8_header e p
      have before : fe.pending = ([] : List UInt32).map (Entry.mk fe.nextPacked) := rfl
      have later {n : Nat} (enough : p.length ≤ n) (r : Registers) (s : σ) :
          Writes
            ((skipPacked n { packed := Packet.header (e :: p) >>> 8, registers := r } s).andThen
              fun fe s => fe.writeWords s (p.flatMap Encoded.parameters))
            (r.executeAll s (p.map Encoded.meaning)) := by
        rw [shift]
        exact ih (Nat.le_of_succ_le short) rest enough r s
      obtain ⟨id, ws⟩ := e
      rw [Encoded.isComplete, beq_iff_eq] at first
      cases ws with
      | nil =>
        -- The instruction has no parameters, so it is skipped over as it is carried out.
        have bare : Instruction.parameters id = 0 := first.symm
        have one : ([] : List UInt32).length + 1 = entries fe.nextPacked := by
          rw [entries, next, bare]
          rfl
        obtain ⟨n, rfl⟩ := Nat.exists_eq_add_one_of_ne_zero
          (Nat.ne_of_gt (Nat.lt_of_lt_of_le (Nat.zero_lt_succ p.length) enough))
        rw [skipPacked, if_pos ⟨empty, by rw [next, bare]⟩, write_of_eq before 0 one,
          List.nil_append, next, Instruction.decode_of_parameters bare [0] [],
          Outcome.andThen_assoc]
        exact Writes.map_andThen (fun _ => rfl) (later (Nat.le_of_succ_le_succ enough))
      | cons w ws =>
        -- Its parameters come first among the words that follow.
        have some_parameter : Instruction.parameters id ≠ 0 := by
          rw [← first]
          exact Nat.succ_ne_zero _
        have carried := writes_parameters before rfl empty (List.cons_ne_nil w ws)
          (by rw [next, ← first]; exact Nat.zero_add _) (later (Nat.le_of_succ_le short)) s
        rw [next] at carried
        rw [skipPacked_of_parameters _ (.inr (by rwa [next]))]
        exact carried

/-- The packed path carries out the instructions of packets. -/
theorem writes_packets {ps : List Packet} (short : ∀ p ∈ ps, p.length ≤ 4)
    (complete : ∀ p ∈ ps, ∀ e ∈ p, e.isComplete = true) (idle : fe.IsIdle) (s : σ) :
    Writes (fe.writePackets s ps)
      (fe.registers.executeAll s (ps.flatten.map Encoded.meaning)) := by
  induction ps generalizing fe s with
  | nil => exact .done idle s
  | cons p ps ih =>
    obtain ⟨short, shorts⟩ := List.forall_mem_cons.1 short
    obtain ⟨first, rest⟩ := List.forall_mem_cons.1 complete
    obtain ⟨pending, packed, count, r⟩ := fe
    obtain ⟨rfl, rfl, rfl⟩ := idle
    rw [writePackets, List.flatMap_cons, writeWords_append, List.flatten_cons, List.map_append,
      Registers.executeAll_append]
    exact (writes_packet short first short r s).andThen fun fe s idle => ih shorts rest idle s

/-- Instructions do the same on both paths, however they are grouped into packets of up
    to four: the same commands are sent in the same order and meet the same answers, so
    that whoever receives them ends up in the same state, and so do the registers. Unless
    a fault cuts them short, the front-end as a whole ends up in the same state, and
    nothing is left waiting. -/
theorem writePackets_eq_writePlain {ps : List Packet} (short : ∀ p ∈ ps, p.length ≤ 4)
    (complete : ∀ p ∈ ps, ∀ e ∈ p, e.isComplete = true) (idle : fe.IsIdle) (s : σ) :
    let packed := fe.writePackets (⟨s, []⟩ : Ledger σ) ps
    let plain := fe.writePlain (⟨s, []⟩ : Ledger σ) ps.flatten
    packed.fault = plain.fault ∧ packed.sink = plain.sink ∧
      packed.state.registers = plain.state.registers ∧
      (plain.fault = none → packed.state = plain.state ∧ packed.state.IsIdle) := by
  intro packed plain
  have all : ∀ e ∈ ps.flatten, e.isComplete = true := by
    intro e he
    obtain ⟨p, hp, he⟩ := List.mem_flatten.1 he
    exact complete p hp e he
  have hpacked := writes_packets short complete idle (⟨s, []⟩ : Ledger σ)
  have hplain := writes_plain idle all (⟨s, []⟩ : Ledger σ)
  have fault : packed.fault = plain.fault := hpacked.fault.trans hplain.fault.symm
  refine ⟨fault, hpacked.sink.trans hplain.sink.symm,
    hpacked.registers.trans hplain.registers.symm, fun sound => ⟨?_, ?_⟩⟩
  · exact congrArg Outcome.state (hpacked.eq hplain (hplain.fault.symm.trans sound))
  · exact hpacked.idle (fault.trans sound)

/-- A triangle is sent in three packets, with instructions without parameters and some
    that do nothing at either end of them. -/
theorem writePackets_eq_writePlain_triangle :
    let ps : List Packet :=
      [[⟨0x00, []⟩, ⟨0x40, [0]⟩, ⟨0x15, []⟩, ⟨0x23, [0x10002000, 0x3000]⟩],
        [⟨0x24, [0x1234]⟩, ⟨0x11, []⟩, ⟨0x00, []⟩, ⟨0x00, []⟩], [⟨0x00, []⟩],
        [⟨0x1B, [0x800, 0x800, 0x1000]⟩, ⟨0x25, [0x12345678]⟩, ⟨0x41, []⟩]]
    let packed := ({} : FrontEnd).writePackets (⟨{}, []⟩ : Ledger Engine) ps
    let plain := ({} : FrontEnd).writePlain (⟨{}, []⟩ : Ledger Engine) ps.flatten
    packed.sink = plain.sink ∧ packed.sink.entries.length = 4 ∧ packed.state = plain.state ∧
      packed.state.IsIdle := by
  intro ps packed plain
  have short : ∀ p ∈ ps, p.length ≤ 4 := by decide
  have complete : ∀ p ∈ ps, ∀ e ∈ p, e.isComplete = true := by decide
  have idle : ({} : FrontEnd).IsIdle := ⟨rfl, rfl, rfl⟩
  obtain ⟨-, sink, -, same⟩ := writePackets_eq_writePlain short complete idle ({} : Engine)
  have sound : plain.fault = none := by decide +kernel
  obtain ⟨state, idle⟩ := same sound
  exact ⟨sink, by decide +kernel, state, idle⟩

/-! ### When nothing waits -/

/-- The packed path has counted fewer parameters than its next instruction has, and none
    if it has no next instruction. -/
def IsCounted (fe : FrontEnd) : Prop :=
  fe.packed = 0 ∧ fe.packedParameters = 0 ∨
    fe.packedParameters.toNat < Instruction.parameters fe.nextPacked

/-- A packed instruction that is done leaves one byte less. -/
theorem toNat_dropPacked {n : Nat} (small : fe.packed.toNat < 256 ^ (n + 1)) :
    fe.dropPacked.packed.toNat < 256 ^ n := by
  have byte : (8 : UInt32).toNat % 32 = 8 := rfl
  rw [dropPacked, UInt32.toNat_shiftRight, byte, Nat.shiftRight_eq_div_pow]
  exact Nat.div_lt_of_lt_mul (Nat.pow_succ' ▸ small)

theorem isCounted_skipPacked (uncounted : fe.packedParameters = 0) {n : Nat}
    (small : fe.packed.toNat < 256 ^ n) {s : σ} (sound : (skipPacked n fe s).fault = none) :
    (skipPacked n fe s).state.IsCounted := by
  induction n generalizing fe s with
  | zero => exact .inl ⟨UInt32.toNat_inj.1 (Nat.lt_one_iff.1 small), uncounted⟩
  | succ n ih =>
    by_cases more : fe.packed ≠ 0 ∧ Instruction.parameters fe.nextPacked = 0
    · have shifted := toNat_dropPacked small
      have first : skipPacked (n + 1) fe s = _ := if_pos more
      rw [first] at sound ⊢
      obtain ⟨-, carried⟩ := Outcome.eq_of_andThen sound
      rw [carried] at sound ⊢
      exact ih (by exact uncounted) (by exact shifted) sound
    · have last : skipPacked (n + 1) fe s = ⟨fe, s, none⟩ := if_neg more
      rw [last]
      by_cases packed : fe.packed = 0
      · exact .inl ⟨packed, uncounted⟩
      · have some_parameter := fun bare => more ⟨packed, bare⟩
        exact .inr (by rw [uncounted]; exact Nat.pos_of_ne_zero some_parameter)

theorem IsCounted.packedParameters_eq_zero (h : fe.IsCounted) (packed : fe.packed = 0) :
    fe.packedParameters = 0 := by
  refine h.elim And.right fun few => ?_
  -- The number `0`, which an empty word begins with, has no parameters.
  rw [nextPacked, packed] at few
  exact absurd few (Nat.not_lt_zero _)

@[simp] theorem packedParameters_write (fe : FrontEnd) (s : σ) (id : UInt8) (w : UInt32) :
    (fe.write s id w).state.packedParameters = fe.packedParameters := rfl

@[simp] theorem nextPacked_write (fe : FrontEnd) (s : σ) (id : UInt8) (w : UInt32) :
    (fe.write s id w).state.nextPacked = fe.nextPacked := rfl

/-- A parameter is the last one of its instruction, or it is counted. -/
theorem counted_writeParameter
    (few : fe.packedParameters.toNat < Instruction.parameters fe.nextPacked) {s : σ} {w : UInt32}
    (sound : (fe.writeParameter s w).fault = none) :
    let written := (fe.writeParameter s w).state
    written.packedParameters = 0 ∨
      written.packedParameters.toNat < Instruction.parameters written.nextPacked := by
  rw [writeParameter] at sound ⊢
  obtain ⟨-, carried⟩ := Outcome.eq_of_andThen sound
  rw [carried, packedParameters_write, nextPacked_write]
  split
  · exact .inl rfl
  · rename_i missing
    exact .inr (Nat.lt_of_le_of_ne (toNat_packedParameters_succ few ▸ few) missing)

theorem IsCounted.writePacked (h : fe.IsCounted) {s : σ} {w : UInt32}
    (sound : (fe.writePacked s w).fault = none) : (fe.writePacked s w).state.IsCounted := by
  have small (w : UInt32) : w.toNat < 256 ^ 4 := w.toNat_lt
  by_cases packed : fe.packed = 0
  · have begun : fe.writePacked s w = skipPacked 4 { fe with packed := w } s := by
      rw [FrontEnd.writePacked, if_pos packed]
      rfl
    rw [begun] at sound ⊢
    exact isCounted_skipPacked (by exact h.packedParameters_eq_zero packed) (small w) sound
  · rw [FrontEnd.writePacked, if_neg packed] at sound ⊢
    obtain ⟨taken, carried⟩ := Outcome.eq_of_andThen sound
    rw [carried] at sound ⊢
    rcases counted_writeParameter (h.resolve_left fun none => packed none.1) taken with none | few
    · exact isCounted_skipPacked none (small _) sound
    · rw [skipPacked_of_parameters _ (.inr (Nat.ne_of_gt (Nat.zero_lt_of_lt few)))]
      exact .inr few

/-- As long as no fault cuts a call short, parameters of packed instructions are only
    counted while there are such instructions. -/
theorem IsCounted.call (h : fe.IsCounted) {s : σ} {c : Call} (sound : (fe.call s c).fault = none) :
    (fe.call s c).state.IsCounted := by
  cases c with
  | write id parameter => exact h
  | writePacked w =>
    exact h.writePacked sound
  | writeStatus w =>
    change (fe.writeStatus w).IsCounted
    rw [writeStatus]
    split <;> exact h
  | readClip => exact h

end FrontEnd

end

end GeometryEngine
