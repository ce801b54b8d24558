import Rx7.Foundations.LittleEndian
import Rx7.Foundations.Tiling

/-!
# Runtime traps, and Foundation's `Data`

A Swift program that slices past the end of its data, converts an integer that does not fit or
indexes an array out of range stops at once: a `Trap`.

`Data` is a window of a storage. A slice shares the storage of what it is taken from, and
`Data.to` reads as many bytes as its target type has, from the first byte of the window on: where
the window is shorter than the type, the read runs on into the storage behind it. What lies
behind the end of a byte string is left open (`Data.ofBytes bytes beyond`).
-/

namespace Rx7

/-- The runtime errors that stop the program. -/
inductive Trap
  | sliceOutOfRange
  | integerOverflow
  | indexOutOfRange
  deriving DecidableEq, Repr

/-- A computation with a continuation: it gives a value, and the continuation goes on with it. -/
theorem Trap.bind_eq_ok_iff {α β : Type} {x : Except Trap α} {f : α → Except Trap β} {b : β} :
    (x >>= f) = .ok b ↔ ∃ a, x = .ok a ∧ f a = .ok b := by
  cases x with
  | error trap => exact ⟨fun h => (by cases h), fun ⟨_, h, _⟩ => (by cases h)⟩
  | ok a => exact ⟨fun h => ⟨a, rfl, h⟩, fun ⟨_, h, hf⟩ => Except.ok.inj h ▸ hf⟩

/-- A property of what every continuation of a computation gives is one of what it gives. -/
theorem Trap.forall_ok_bind {α β : Type} {P : β → Prop} {x : Except Trap α} {f : α → Except Trap β}
    (h : ∀ a b, f a = .ok b → P b) : ∀ b, (x >>= f) = .ok b → P b := by
  intro b hb
  obtain ⟨a, -, hf⟩ := Trap.bind_eq_ok_iff.1 hb
  exact h a b hf

/-- A window of a storage of bytes. -/
structure Data where
  storage : ℕ → UInt8
  startIndex : ℕ
  endIndex : ℕ
  startIndex_le_endIndex : startIndex ≤ endIndex

/-- The fixed-width types that `Data.to` reads, as the number of their bytes and the value these
spell in memory. -/
class Pointee (T : Type) where
  size : ℕ
  load : List UInt8 → T

instance : Pointee UInt8 := ⟨1, fun bs => .ofNat (LittleEndian.ofBytes bs)⟩
instance : Pointee Int8 := ⟨1, fun bs => .ofNat (LittleEndian.ofBytes bs)⟩
instance : Pointee UInt16 := ⟨2, fun bs => .ofNat (LittleEndian.ofBytes bs)⟩
instance : Pointee Int16 := ⟨2, fun bs => .ofNat (LittleEndian.ofBytes bs)⟩
instance : Pointee UInt64 := ⟨8, fun bs => .ofNat (LittleEndian.ofBytes bs)⟩

/-- Swift's `Int` is 64 bits wide. -/
instance : Pointee Int64 := ⟨8, fun bs => .ofNat (LittleEndian.ofBytes bs)⟩

/-- The types of which no two strings of their size load alike. -/
class LawfulPointee (T : Type) [Pointee T] : Prop where
  load_inj : ∀ {bs cs : List UInt8}, bs.length = Pointee.size T → cs.length = Pointee.size T →
    (Pointee.load bs : T) = Pointee.load cs → bs = cs

/-- A string is the bits of its number where the type has eight bits for each byte. -/
theorem Pointee.eq_of_ofNat_eq {n w : ℕ} (hw : 256 ^ n = 2 ^ w) {bs cs : List UInt8}
    (hb : bs.length = n) (hc : cs.length = n)
    (h : BitVec.ofNat w (LittleEndian.ofBytes bs) = BitVec.ofNat w (LittleEndian.ofBytes cs)) :
    bs = cs := by
  have hbs := LittleEndian.ofBytes_lt bs
  have hcs := LittleEndian.ofBytes_lt cs
  rw [hb, hw] at hbs
  rw [hc, hw] at hcs
  have he := congrArg BitVec.toNat h
  rw [BitVec.toNat_ofNat, BitVec.toNat_ofNat, Nat.mod_eq_of_lt hbs, Nat.mod_eq_of_lt hcs] at he
  exact (LittleEndian.ofBytes_inj (hb.trans hc.symm)).1 he

instance : LawfulPointee UInt8 :=
  ⟨fun hb hc h => Pointee.eq_of_ofNat_eq rfl hb hc (congrArg UInt8.toBitVec h)⟩
instance : LawfulPointee Int8 :=
  ⟨fun hb hc h => Pointee.eq_of_ofNat_eq rfl hb hc (congrArg Int8.toBitVec h)⟩
instance : LawfulPointee UInt16 :=
  ⟨fun hb hc h => Pointee.eq_of_ofNat_eq rfl hb hc (congrArg UInt16.toBitVec h)⟩
instance : LawfulPointee Int16 :=
  ⟨fun hb hc h => Pointee.eq_of_ofNat_eq rfl hb hc (congrArg Int16.toBitVec h)⟩
instance : LawfulPointee UInt64 :=
  ⟨fun hb hc h => Pointee.eq_of_ofNat_eq rfl hb hc (congrArg UInt64.toBitVec h)⟩

namespace Data

/-- The bytes of the storage from an index on. -/
def window (storage : ℕ → UInt8) (start length : ℕ) : List UInt8 :=
  (List.range length).map fun i => storage (start + i)

@[simp] theorem length_window (storage : ℕ → UInt8) (start length : ℕ) :
    (window storage start length).length = length := by
  simp [window]

theorem window_eq_iff {m m' : ℕ → UInt8} {a n : ℕ} :
    window m a n = window m' a n ↔ ∀ i, a ≤ i → i < a + n → m i = m' i := by
  simp only [window, List.map_inj_left, List.mem_range]
  refine ⟨fun h i hi hi' => ?_, fun h i hi => h (a + i) (by omega) (by omega)⟩
  have := h (i - a) (by omega)
  rwa [show a + (i - a) = i by omega] at this

theorem window_add (m : ℕ → UInt8) (a n k : ℕ) :
    window m a (n + k) = window m a n ++ window m (a + n) k := by
  simp [window, List.range_add, Nat.add_assoc, Function.comp_def]

variable (data : Data)

def count : ℕ := data.endIndex - data.startIndex

def bytes : List UInt8 := window data.storage data.startIndex data.count

/-- `data[lower..<upper]`. -/
def slice (lower upper : ℕ) : Except Trap Data :=
  if h : data.startIndex ≤ lower ∧ lower ≤ upper ∧ upper ≤ data.endIndex then
    .ok ⟨data.storage, lower, upper, h.2.1⟩
  else .error .sliceOutOfRange

/-- `withUnsafeBytes { $0.pointee }`: the bytes read are those of the type, wherever the window
ends. -/
def «to» (T : Type) [Pointee T] : T :=
  Pointee.load (window data.storage data.startIndex (Pointee.size T))

/-- `data[lower..<upper].to(T.self)`. -/
def read (T : Type) [Pointee T] (lower upper : ℕ) : Except Trap T := do
  return (← data.slice lower upper).«to» T

/-- What a read from an offset finds. -/
def loaded (T : Type) [Pointee T] (storage : ℕ → UInt8) (lower : ℕ) : T :=
  Pointee.load (window storage lower (Pointee.size T))

variable {data} {T : Type} [Pointee T] {lower upper : ℕ}

theorem read_eq_ok (h : data.startIndex ≤ lower ∧ lower ≤ upper ∧ upper ≤ data.endIndex) :
    data.read T lower upper = .ok (loaded T data.storage lower) := by
  simp [read, slice, h, «to», loaded]

theorem read_eq_error (h : data.endIndex < upper) :
    data.read T lower upper = .error .sliceOutOfRange := by
  have h' : ¬ (data.startIndex ≤ lower ∧ lower ≤ upper ∧ upper ≤ data.endIndex) := by omega
  simp [read, slice, h']

/-- A read followed by a computation: the slice is in range, and the computation goes on with what
the storage holds there. -/
theorem bind_read_eq_ok_iff (h0 : data.startIndex = 0) (h : lower ≤ upper) {β : Type} {b : β}
    {f : T → Except Trap β} :
    (data.read T lower upper >>= f) = .ok b ↔
      upper ≤ data.endIndex ∧ f (loaded T data.storage lower) = .ok b := by
  by_cases hu : upper ≤ data.endIndex
  · rw [read_eq_ok ⟨by omega, h, hu⟩]
    exact (and_iff_right hu).symm
  · rw [read_eq_error (by omega)]
    exact ⟨fun h => (by cases h), fun h => absurd h.1 hu⟩

/-! ### The value a read finds -/

/-- A read finds the same value in two storages exactly where they agree on its bytes. -/
theorem loaded_eq_iff [LawfulPointee T] {m m' : ℕ → UInt8} {a : ℕ} :
    loaded T m a = loaded T m' a ↔ Set.EqOn m m' (Set.Ico a (a + Pointee.size T)) := by
  have hwindow : window m a (Pointee.size T) = window m' a (Pointee.size T) ↔
      Set.EqOn m m' (Set.Ico a (a + Pointee.size T)) :=
    window_eq_iff.trans ⟨fun h i hi => h i hi.1 hi.2, fun h i hi hi' => h ⟨hi, hi'⟩⟩
  rw [← hwindow]
  exact ⟨LawfulPointee.load_inj (length_window ..) (length_window ..), congrArg Pointee.load⟩

@[simp] theorem loaded_uint8 (m : ℕ → UInt8) (a : ℕ) : loaded UInt8 m a = m a := by
  simp [loaded, Pointee.load, Pointee.size, window]

theorem toNat_loaded_uint64 (m : ℕ → UInt8) (a : ℕ) :
    (loaded UInt64 m a).toNat = LittleEndian.ofBytes (window m a 8) := by
  have h := LittleEndian.ofBytes_lt (window m a 8)
  rw [length_window] at h
  exact UInt64.toNat_ofNat_of_lt' h

theorem toInt_loaded_int64 (m : ℕ → UInt8) (a : ℕ) :
    (loaded Int64 m a).toInt = (LittleEndian.ofBytes (window m a 8) : ℤ).bmod (2 ^ 64) :=
  Int64.toInt_ofNat'

/-- The byte string `bytes`, with `beyond` behind its end in memory. -/
def ofBytes (bytes : List UInt8) (beyond : ℕ → UInt8) : Data where
  storage i := if h : i < bytes.length then bytes[i] else beyond (i - bytes.length)
  startIndex := 0
  endIndex := bytes.length
  startIndex_le_endIndex := Nat.zero_le _

section OfBytes

variable {bs : List UInt8} {beyond : ℕ → UInt8}

@[simp] theorem startIndex_ofBytes : (ofBytes bs beyond).startIndex = 0 := rfl

@[simp] theorem endIndex_ofBytes : (ofBytes bs beyond).endIndex = bs.length := rfl

@[simp] theorem count_ofBytes : (ofBytes bs beyond).count = bs.length := rfl

theorem storage_ofBytes {i : ℕ} (h : i < bs.length) : (ofBytes bs beyond).storage i = bs[i] := by
  simp [ofBytes, h]

@[simp] theorem bytes_ofBytes : (ofBytes bs beyond).bytes = bs := by
  refine List.ext_getElem (by simp [bytes]) fun i hi hi' => ?_
  simp [bytes, window, ofBytes, hi']

theorem window_ofBytes {a n : ℕ} (h : a + n ≤ bs.length) :
    window (ofBytes bs beyond).storage a n = (bs.drop a).take n := by
  refine List.ext_getElem (by simp; omega) fun i hi hi' => ?_
  simp only [length_window] at hi
  have hai : a + i < bs.length := by omega
  simp [window, storage_ofBytes hai]

end OfBytes

end Data

end Rx7
