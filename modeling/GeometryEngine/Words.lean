/-!
# Words as bytes

A save state is a sequence of 32-bit words, each written as four bytes, the
lowest first. Reading takes whole words only: bytes that are left over at the
end are no word.

Main statements: words are read back as they were written, also before other
bytes (`decode_encode_append`), and what is read from four bytes is written as
the same four bytes (`bytes_ofBytes`).
-/

namespace GeometryEngine.Words

/-- The four bytes of a word, the lowest first. -/
def bytes (w : UInt32) : List UInt8 :=
  [UInt8.ofNat w.toNat, UInt8.ofNat (w.toNat / 256), UInt8.ofNat (w.toNat / 65536),
    UInt8.ofNat (w.toNat / 16777216)]

/-- The word of four bytes, the lowest first. -/
def ofBytes (a b c d : UInt8) : UInt32 :=
  UInt32.ofNat (a.toNat + 256 * b.toNat + 65536 * c.toNat + 16777216 * d.toNat)

/-- The bytes of a sequence of words. -/
def encode (ws : List UInt32) : List UInt8 := ws.flatMap bytes

/-- Reads words behind those that have been read already. -/
def decodeOnto (read : Array UInt32) : List UInt8 → Array UInt32
  | a :: b :: c :: d :: rest => decodeOnto (read.push (ofBytes a b c d)) rest
  | _ => read

/-- The words of a sequence of bytes. -/
def decode (bs : List UInt8) : List UInt32 := (decodeOnto #[] bs).toList

/-- The word `w` with its lowest bytes replaced by those of `bs`. -/
def overlay (w : UInt32) (bs : List UInt8) : UInt32 :=
  match bs ++ (bytes w).drop bs.length with
  | [a, b, c, d] => ofBytes a b c d
  | _ => w

/-! ### One word -/

theorem ofBytes_bytes (w : UInt32) :
    ofBytes (UInt8.ofNat w.toNat) (UInt8.ofNat (w.toNat / 256)) (UInt8.ofNat (w.toNat / 65536))
      (UInt8.ofNat (w.toNat / 16777216)) = w := by
  apply UInt32.toNat_inj.1
  have := w.toNat_lt
  simp only [ofBytes, UInt32.toNat_ofNat', UInt8.toNat_ofNat']
  omega

theorem bytes_ofBytes (a b c d : UInt8) : bytes (ofBytes a b c d) = [a, b, c, d] := by
  have ha := a.toNat_lt
  have hb := b.toNat_lt
  have hc := c.toNat_lt
  have hd := d.toNat_lt
  simp only [bytes, ofBytes, UInt32.toNat_ofNat', List.cons.injEq, and_true]
  refine ⟨?_, ?_, ?_, ?_⟩ <;>
    · apply UInt8.toNat_inj.1
      simp only [UInt8.toNat_ofNat']
      omega

/-! ### Sequences of words -/

theorem toList_decodeOnto : ∀ (read : Array UInt32) (bs : List UInt8),
    (decodeOnto read bs).toList = read.toList ++ decode bs
  | read, a :: b :: c :: d :: rest => by
    rw [decode, decodeOnto, decodeOnto, toList_decodeOnto (read.push _) rest,
      toList_decodeOnto (#[].push _) rest]
    simp
  | _, [] | _, [_] | _, [_, _] | _, [_, _, _] => by simp [decode, decodeOnto]

theorem decode_cons (a b c d : UInt8) (bs : List UInt8) :
    decode (a :: b :: c :: d :: bs) = ofBytes a b c d :: decode bs := by
  rw [decode, decodeOnto, toList_decodeOnto]
  simp

theorem decode_short {bs : List UInt8} (h : bs.length < 4) : decode bs = [] := by
  match bs, h with
  | [], _ | [_], _ | [_, _], _ | [_, _, _], _ => rfl

theorem encode_append (ws vs : List UInt32) : encode (ws ++ vs) = encode ws ++ encode vs := by
  simp [encode]

/-- Words are read back as they were written, whatever follows them. -/
theorem decode_encode_append (ws : List UInt32) (bs : List UInt8) :
    decode (encode ws ++ bs) = ws ++ decode bs := by
  induction ws with
  | nil => rfl
  | cons w ws ih =>
    rw [encode, List.flatMap_cons, List.append_assoc, ← encode]
    simp only [bytes, List.cons_append, List.nil_append, decode_cons, ofBytes_bytes, ih]

end GeometryEngine.Words
