import Mathlib.Logic.Function.Basic
import RfcMgr.Hostif
import RfcMgr.StoreFrame

/-! How `read_RFCProperty` fills the caller's buffer, byte by byte: the STB branch prints the value and
cuts it behind the closing quote afterwards, the rbus branch copies what it needs and ends it there. -/

namespace RfcMgr.ReadBuffer

open LocalStore (NulFree)

/-! ### Writes to a buffer -/

/-- The bytes that are written, in order, each with its index into the buffer. -/
abbrev Writes := List (Nat × Char)

def nul : Char := Char.ofNat 0

def writeFrom : Nat → Str → Writes
  | _, [] => []
  | start, c :: bytes => (start, c) :: writeFrom (start + 1) bytes

def perform (memory : Nat → Char) (writes : Writes) : Nat → Char :=
  writes.foldl (fun memory write => Function.update memory write.1 write.2) memory

/-- The memory from the buffer on starts with the text and a NUL, all of it in `datasize` bytes. -/
structure HoldsText (memory : Nat → Char) (datasize : Nat) (text : Str) : Prop where
  nulFree : NulFree text
  fits : text.length < datasize
  bytes : ∀ i (h : i < text.length), memory i = text[i]
  terminated : memory text.length = nul

/-- The writes stay in the buffer and leave the text in it, whatever was there before. -/
structure Fills (writes : Writes) (datasize : Nat) (text : Str) : Prop where
  inside : ∀ write ∈ writes, write.1 < datasize
  holds : ∀ memory, HoldsText (perform memory writes) datasize text

theorem writeFrom_append (start : Nat) (front back : Str) :
    writeFrom start (front ++ back) = writeFrom start front ++ writeFrom (start + front.length) back := by
  induction front generalizing start with
  | nil => rfl
  | cons c front ih =>
      rw [List.cons_append, writeFrom, ih, writeFrom, List.cons_append, List.length_cons,
        show start + 1 + front.length = start + (front.length + 1) by omega]

theorem lt_of_mem_writeFrom {start : Nat} {bytes : Str} {write : Nat × Char}
    (h : write ∈ writeFrom start bytes) : write.1 < start + bytes.length := by
  induction bytes generalizing start with
  | nil => cases h
  | cons c bytes ih =>
      rw [List.length_cons]
      obtain rfl | h := List.mem_cons.mp h
      · show start < _
        omega
      · have := ih h
        omega

theorem perform_append (memory : Nat → Char) (front back : Writes) :
    perform memory (front ++ back) = perform (perform memory front) back := List.foldl_append

theorem perform_writeFrom_below (memory : Nat → Char) (bytes : Str) {start i : Nat} (h : i < start) :
    perform memory (writeFrom start bytes) i = memory i := by
  induction bytes generalizing memory start with
  | nil => rfl
  | cons c bytes ih =>
      show perform (Function.update memory start c) (writeFrom (start + 1) bytes) i = memory i
      rw [ih _ (by omega), Function.update_of_ne (by omega)]

theorem perform_writeFrom (memory : Nat → Char) (bytes : Str) (start : Nat) {i : Nat}
    (h : i < bytes.length) : perform memory (writeFrom start bytes) (start + i) = bytes[i] := by
  induction bytes generalizing memory start i with
  | nil => cases h
  | cons c bytes ih =>
      cases i with
      | zero =>
          show perform (Function.update memory start c) (writeFrom (start + 1) bytes) start = c
          rw [perform_writeFrom_below _ _ (by omega), Function.update_self]
      | succ i =>
          have hi : i < bytes.length := Nat.lt_of_succ_lt_succ h
          show perform (Function.update memory start c) (writeFrom (start + 1) bytes) (start + (i + 1)) =
            bytes[i]
          rw [show start + (i + 1) = start + 1 + i by omega, ih _ _ hi]

/-- A text that is written with its NUL is held. -/
theorem fills_writeFrom {text : Str} {datasize : Nat} (hnul : NulFree text)
    (hfits : text.length < datasize) : Fills (writeFrom 0 (text ++ [nul])) datasize text where
  inside := by
    intro write h
    have := lt_of_mem_writeFrom h
    rw [List.length_append, List.length_singleton] at this
    omega
  holds := fun memory => {
    nulFree := hnul
    fits := hfits
    bytes := by
      intro i hi
      have hbyte := perform_writeFrom memory (text ++ [nul]) 0 (i := i)
        (by rw [List.length_append]; omega)
      rw [Nat.zero_add] at hbyte
      rw [hbyte, List.getElem_append_left hi]
    terminated := by
      have hbyte := perform_writeFrom memory (text ++ [nul]) 0 (i := text.length)
        (by rw [List.length_append, List.length_singleton]; omega)
      rw [Nat.zero_add] at hbyte
      rw [hbyte, List.getElem_concat_length rfl] }

/-! ### The two branches -/

/-- `snprintf(out_value, datasize, "%s", text)`. -/
def snprintf (datasize : Nat) (text : Str) : Writes :=
  writeFrom 0 (text.take (datasize - 1) ++ [nul])

/-- `memcpy` of `copyLen` bytes, and the NUL behind them. -/
def copy (copyLen : Nat) (text : Str) : Writes :=
  writeFrom 0 (text.take copyLen) ++ [(copyLen, nul)]

def Quoted (value : Str) : Prop :=
  2 ≤ value.length ∧ value.head? = some '"' ∧ value.getLast? = some '"'

instance (value : Str) : Decidable (Quoted value) := inferInstanceAs (Decidable (_ ∧ _))

/-- The writes of a successful read, STB build. -/
def writeValue (value : Str) (datasize : Nat) : Writes :=
  if Quoted value then snprintf datasize (value.drop 1) ++ [(value.length - 2, nul)]
  else snprintf datasize value

/-- The writes of a successful read of a string, rbus builds. -/
def writeRbusValue (value : Str) (datasize : Nat) : Writes :=
  if Quoted value then
    copy (if value.length - 2 < datasize - 1 then value.length - 2 else datasize - 1) (value.drop 1)
  else copy (if value.length < datasize - 1 then value.length else datasize - 1) value

/-- The value without a pair of quotes around it. -/
def unquote (value : Str) : Str := if Quoted value then (value.drop 1).dropLast else value

theorem quoted_wrap (inner : Str) : Quoted ('"' :: (inner ++ ['"'])) := by
  refine ⟨by simp, rfl, ?_⟩
  rw [← List.cons_append, List.getLast?_concat]

theorem Quoted.eq_wrap {value : Str} (h : Quoted value) : ∃ inner, value = '"' :: (inner ++ ['"']) := by
  obtain ⟨hlen, hhead, hlast⟩ := h
  obtain ⟨rest, rfl⟩ := List.head?_eq_some_iff.mp hhead
  cases rest using List.reverseRecOn with
  | nil => simp at hlen
  | append_singleton inner last =>
      rw [← List.cons_append, List.getLast?_concat] at hlast
      obtain rfl := Option.some.inj hlast
      exact ⟨inner, rfl⟩

theorem unquote_wrap (inner : Str) : unquote ('"' :: (inner ++ ['"'])) = inner := by
  rw [unquote, if_pos (quoted_wrap inner), List.drop_one, List.tail_cons, List.dropLast_concat]

theorem length_wrap (inner : Str) : ('"' :: (inner ++ ['"'])).length = inner.length + 2 := by
  rw [List.length_cons, List.length_append, List.length_singleton]

theorem NulFree.unquote {value : Str} (h : NulFree value) : NulFree (unquote value) := by
  intro hmem
  apply h
  unfold ReadBuffer.unquote at hmem
  split at hmem
  · exact List.mem_of_mem_drop (List.mem_of_mem_dropLast hmem)
  · exact hmem

/-- The text that `Device.readRFCProperty` and its rbus sibling deliver. -/
theorem readValue_eq (value : Str) (datasize : Nat) :
    Device.readValue value datasize = (unquote value).take (datasize - 1) := by
  by_cases hquoted : Quoted value
  · have hread : Device.readValue value datasize =
        ((value.drop 1).take (datasize - 1)).take (value.length - 2) := if_pos hquoted
    obtain ⟨inner, rfl⟩ := hquoted.eq_wrap
    rw [hread, unquote_wrap, List.take_take, Nat.min_comm, ← List.take_take]
    simp
  · have hread : Device.readValue value datasize = value.take (datasize - 1) := if_neg hquoted
    rw [hread, unquote, if_neg hquoted]

/-- A copy of no more than there is writes what `snprintf` writes. -/
theorem copy_eq (text back : Str) (datasize : Nat) :
    copy (if text.length < datasize - 1 then text.length else datasize - 1) (text ++ back) =
      snprintf datasize text := by
  have hlen : (if text.length < datasize - 1 then text.length else datasize - 1) =
      (text.take (datasize - 1)).length := by
    rw [List.length_take]
    split <;> omega
  have hbytes : (text ++ back).take (text.take (datasize - 1)).length = text.take (datasize - 1) := by
    rw [List.length_take, List.take_append_of_le_length (by omega), ← List.take_take,
      List.take_length]
  rw [hlen, copy, hbytes, snprintf, writeFrom_append, Nat.zero_add]
  rfl

theorem writeRbusValue_eq (value : Str) (datasize : Nat) :
    writeRbusValue value datasize = snprintf datasize (unquote value) := by
  by_cases hquoted : Quoted value
  · rw [writeRbusValue, if_pos hquoted]
    obtain ⟨inner, rfl⟩ := hquoted.eq_wrap
    have hcopy := copy_eq inner ['"'] datasize
    rw [unquote_wrap, ← hcopy, List.drop_one, List.tail_cons, length_wrap, Nat.add_sub_cancel]
  · have hcopy := copy_eq value [] datasize
    rw [List.append_nil] at hcopy
    rw [writeRbusValue, if_neg hquoted, unquote, if_neg hquoted, hcopy]

theorem fills_snprintf {text : Str} {datasize : Nat} (hnul : NulFree text) (hsize : 0 < datasize) :
    Fills (snprintf datasize text) datasize (text.take (datasize - 1)) := by
  apply fills_writeFrom
  · exact fun hmem => hnul (List.mem_of_mem_take hmem)
  · rw [List.length_take]
    omega

theorem snprintf_inside {text : Str} {datasize : Nat} (hsize : 0 < datasize) {write : Nat × Char}
    (h : write ∈ snprintf datasize text) : write.1 < datasize := by
  have := lt_of_mem_writeFrom h
  rw [List.length_append, List.length_take, List.length_singleton] at this
  omega

/-- The cut behind the last byte of the text falls into the buffer, or onto the NUL at its end. -/
theorem fills_cut {text back : Str} {datasize : Nat} (hnul : NulFree text)
    (hfits : text.length < datasize) :
    Fills (snprintf datasize (text ++ back) ++ [(text.length, nul)]) datasize text where
  inside := by
    intro write h
    obtain h | h := List.mem_append.mp h
    · exact snprintf_inside (by omega) h
    · rw [List.mem_singleton.mp h]
      exact hfits
  holds := by
    intro memory
    rw [perform_append]
    show HoldsText (Function.update (perform memory (snprintf datasize (text ++ back))) text.length nul)
      datasize text
    refine ⟨hnul, hfits, ?_, Function.update_self _ _ _⟩
    intro i hi
    have hkept : i < ((text ++ back).take (datasize - 1)).length := by
      rw [List.length_take, List.length_append]
      omega
    have hbyte := perform_writeFrom memory ((text ++ back).take (datasize - 1) ++ [nul]) 0
      (lt_of_lt_of_le hkept (List.length_append ▸ Nat.le_add_right _ _))
    rw [Nat.zero_add, List.getElem_append_left hkept, List.getElem_take,
      List.getElem_append_left hi] at hbyte
    rw [Function.update_of_ne (by omega)]
    exact hbyte

/-- **The buffer**: both branches leave the unquoted value in it, as far as it fits, unless the STB
branch cuts a quoted value behind the end of the buffer. -/
theorem fills_writeValue_iff {value : Str} {datasize : Nat} (hnul : NulFree value)
    (hsize : 0 < datasize) :
    (Fills (writeValue value datasize) datasize ((unquote value).take (datasize - 1)) ∧
        Fills (writeRbusValue value datasize) datasize ((unquote value).take (datasize - 1))) ↔
      (Quoted value → value.length ≤ datasize + 1) := by
  have hunquoted : NulFree (unquote value) := NulFree.unquote hnul
  have hrbus : Fills (writeRbusValue value datasize) datasize ((unquote value).take (datasize - 1)) :=
    writeRbusValue_eq value datasize ▸ fills_snprintf hunquoted hsize
  refine (and_iff_left hrbus).trans ?_
  by_cases hquoted : Quoted value
  · rw [writeValue, if_pos hquoted]
    obtain ⟨inner, rfl⟩ := hquoted.eq_wrap
    rw [unquote_wrap] at hunquoted ⊢
    rw [List.drop_one, List.tail_cons, length_wrap, Nat.add_sub_cancel]
    constructor
    · intro hfills _
      have hcut := hfills.inside (inner.length, nul)
        (List.mem_append_right _ (List.mem_singleton.mpr rfl))
      omega
    · intro hlen
      have hfits : inner.length < datasize := by
        have := hlen hquoted
        omega
      rw [List.take_of_length_le (by omega)]
      exact fills_cut hunquoted hfits
  · rw [writeValue, if_neg hquoted]
    refine iff_of_true ?_ fun h => absurd h hquoted
    rw [unquote, if_neg hquoted] at hunquoted ⊢
    exact fills_snprintf hunquoted hsize

theorem fills_writeValue_ab :
    Fills (writeValue "\"ab\"".toList 3) 3 "ab".toList ∧
      Fills (writeRbusValue "\"ab\"".toList 3) 3 "ab".toList :=
  (@fills_writeValue_iff "\"ab\"".toList 3 (by decide) (by decide)).mpr fun _ => by decide

/-- The buffer of `GetOsClass` and a quoted class name of 100 letters. -/
theorem not_fills_osClass :
    ¬ Fills (writeValue ('"' :: (List.replicate 100 'a' ++ ['"'])) 100) 100
      ((unquote ('"' :: (List.replicate 100 'a' ++ ['"']))).take 99) := by
  intro hfills
  have hcut := hfills.inside (100, nul) (by
    rw [writeValue, if_pos (quoted_wrap _)]
    exact List.mem_append_right _ (by simp))
  omega

end RfcMgr.ReadBuffer
