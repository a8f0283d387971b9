import WagmiBench.Lib.Text

/-!
# Length-prefixed fields

Big-endian numbers and the vectors of a wire format, whose content follows its own length.
-/

namespace WagmiBench.Lib

/-- `int.from_bytes(raw, "big")` -/
def ofBigEndian (raw : Bytes) : ℕ := raw.foldl (fun n b => 256 * n + b.toNat) 0

@[simp] theorem ofBigEndian_singleton (b : UInt8) : ofBigEndian [b] = b.toNat := by
  simp [ofBigEndian]

/-- The bytes of a vector: the length of the content in `width` bytes, and the content. -/
def IsVector (width : ℕ) (bytes content : Bytes) : Prop :=
  ∃ len, len.length = width ∧ ofBigEndian len = content.length ∧ bytes = len ++ content

/-- What follows a vector, and the vector, are determined by their bytes. -/
theorem IsVector.append_inj {width : ℕ} {bytes bytes' content content' rest rest' : Bytes}
    (h : IsVector width bytes content) (h' : IsVector width bytes' content')
    (heq : bytes ++ rest = bytes' ++ rest') : content = content' ∧ rest = rest' := by
  obtain ⟨len, hlen, hlength, rfl⟩ := h
  obtain ⟨len', hlen', hlength', rfl⟩ := h'
  rw [List.append_assoc, List.append_assoc] at heq
  obtain ⟨rfl, hcontent⟩ := List.append_inj heq (hlen.trans hlen'.symm)
  exact List.append_inj hcontent (hlength.symm.trans hlength')

/-- The bytes of `data` between two offsets. -/
def slice (data : Bytes) (offset length : ℕ) : Bytes := (data.drop offset).take length

theorem slice_length {data : Bytes} {offset length : ℕ} (h : offset + length ≤ data.length) :
    (slice data offset length).length = length := by
  simp only [slice, List.length_take, List.length_drop]
  omega

theorem slice_append {data : Bytes} {i j m n : ℕ} (h : j = i + m) :
    slice data i m ++ slice data j n = slice data i (m + n) := by
  rw [h, slice, slice, slice, List.take_add, List.drop_drop]

theorem slice_append_drop (data : Bytes) (i n : ℕ) :
    slice data i n ++ data.drop (i + n) = data.drop i := by
  rw [← List.drop_drop, slice, List.take_append_drop]

theorem slice_all {data : Bytes} {n : ℕ} (h : n = data.length) : slice data 0 n = data := by
  simp [slice, h]

/-- A slice up to the end. -/
theorem slice_to_end {data : Bytes} {offset n : ℕ} (h : offset + n = data.length) :
    slice data offset n = data.drop offset := by
  rw [slice, List.take_of_length_le]
  simp only [List.length_drop]
  omega

/-- A length in place and as many bytes after it are a vector. -/
theorem isVector_slice {data : Bytes} {offset width n : ℕ}
    (hn : ofBigEndian (slice data offset width) = n) (h : offset + width + n ≤ data.length) :
    IsVector width (slice data offset (width + n)) (slice data (offset + width) n) :=
  ⟨slice data offset width, slice_length (by omega), by rw [hn, slice_length h],
    (slice_append rfl).symm⟩

end WagmiBench.Lib
