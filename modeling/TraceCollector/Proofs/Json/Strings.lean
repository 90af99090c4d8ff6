import Mathlib.Tactic.SplitIfs
import TraceCollector.Json.Shape
import TraceCollector.Json.Write

/-!
# Strings that are written

A string in a compact text is read as the string it was written from.

1. The bytes of a text are those of its characters (`utf8_ofList`), and a text can be got back from
   them (`fromUTF8?_bytesOf`).
2. One character is read from what is written for it (`stringBytes_charChars`): an escape for a
   quotation mark, a backslash or a control character, and the bytes of any other themselves, since
   none of these can be taken for a quotation mark or a backslash (`plain_of_utf8EncodeChar`).
3. So a string is read up to its closing quotation mark (`string_stringTail`).
-/

namespace TraceCollector.Json

/-! ## Bytes of characters -/

/-- The UTF-8 bytes of some characters. -/
def bytesOf (cs : List Char) : List UInt8 := cs.flatMap String.utf8EncodeChar

@[simp] theorem bytesOf_nil : bytesOf [] = [] := rfl

@[simp] theorem bytesOf_append (cs ds : List Char) :
    bytesOf (cs ++ ds) = bytesOf cs ++ bytesOf ds := List.flatMap_append

theorem bytesOf_cons (c : Char) (cs : List Char) :
    bytesOf (c :: cs) = String.utf8EncodeChar c ++ bytesOf cs := List.flatMap_cons

theorem utf8_ofList (cs : List Char) : utf8 (String.ofList cs) = bytesOf cs := by
  unfold utf8 String.toUTF8
  rw [String.toByteArray_ofList]
  simp [bytesOf, List.utf8Encode]

theorem fromUTF8?_bytesOf (s : String) :
    String.fromUTF8? ⟨(bytesOf s.toList).toArray⟩ = some s := by
  have hbytes : (⟨(bytesOf s.toList).toArray⟩ : ByteArray) = s.toByteArray := by
    rw [← utf8_ofList, String.ofList_toList]
    rfl
  rw [hbytes]
  unfold String.fromUTF8?
  rw [dif_pos s.isValidUTF8]
  rfl

/-! ## One character -/

theorem readAs_readAs {α β γ : Type} (f : β → γ) (g : α → β) (step : Step α) :
    readAs f (readAs g step) = readAs (fun a => f (g a)) step := by
  cases step <;> rfl

/-- A byte that stands for itself in a string. -/
def IsPlain (b : UInt8) : Prop := b ≠ 92 ∧ b ≠ 34 ∧ ¬ b < 32

theorem stringBytes_of_plain {b : UInt8} (h : IsPlain b) (s : List UInt8) :
    stringBytes none (b :: s) = readAs (b :: ·) (stringBytes none s) := by
  obtain ⟨hbackslash, hquote, hcontrol⟩ := h
  rw [stringBytes]
  · simp [hquote, hcontrol]
  all_goals simp [hbackslash]

theorem stringBytes_append {bs : List UInt8} (h : ∀ b ∈ bs, IsPlain b) (s : List UInt8) :
    stringBytes none (bs ++ s) = readAs (bs ++ ·) (stringBytes none s) := by
  induction bs with
  | nil => cases hs : stringBytes none s <;> simp [readAs, hs]
  | cons b rest ih =>
    obtain ⟨hb, hrest⟩ := List.forall_mem_cons.mp h
    rw [List.cons_append, stringBytes_of_plain hb, ih hrest, readAs_readAs]
    rfl

theorem isPlain_of_toNat {b : UInt8} (hbackslash : b.toNat ≠ 92) (hquote : b.toNat ≠ 34)
    (hcontrol : 32 ≤ b.toNat) : IsPlain b := by
  refine ⟨fun h => hbackslash (by rw [h]; rfl), fun h => hquote (by rw [h]; rfl), fun h => ?_⟩
  have hlt : b.toNat < 32 := UInt8.lt_iff_toNat_lt.mp h
  omega

/-- The bytes of a character that is not one of ASCII are none of ASCII either. -/
theorem le_of_mem_utf8EncodeChar {c : Char} {b : UInt8} (hc : 128 ≤ c.toNat)
    (hb : b ∈ String.utf8EncodeChar c) : 128 ≤ b.toNat := by
  have hsome : ∃ n, b = UInt8.ofNat n ∧ 128 ≤ n % 256 := by
    unfold String.utf8EncodeChar at hb
    rw [show c.val.toNat = c.toNat from rfl] at hb
    dsimp only at hb
    rw [if_neg (by omega)] at hb
    split_ifs at hb <;> simp only [List.mem_cons, List.not_mem_nil, or_false] at hb
    · rcases hb with h | h <;> exact ⟨_, h, by omega⟩
    · rcases hb with h | h | h <;> exact ⟨_, h, by omega⟩
    · rcases hb with h | h | h | h <;> exact ⟨_, h, by omega⟩
  obtain ⟨n, rfl, hn⟩ := hsome
  rwa [UInt8.toNat_ofNat']

theorem utf8EncodeChar_of_lt {c : Char} (hc : c.toNat < 128) :
    String.utf8EncodeChar c = [UInt8.ofNat c.toNat] :=
  if_pos (Nat.le_of_lt_succ hc)

theorem plain_of_utf8EncodeChar {c : Char} (hquote : c ≠ '"') (hbackslash : c ≠ '\\')
    (hcontrol : ¬ c.toNat < 32) : ∀ b ∈ String.utf8EncodeChar c, IsPlain b := by
  intro b hb
  by_cases hc : c.toNat < 128
  · rw [utf8EncodeChar_of_lt hc, List.mem_singleton] at hb
    have htoNat : b.toNat = c.toNat := by
      rw [hb, UInt8.toNat_ofNat']
      omega
    refine isPlain_of_toNat ?_ ?_ ?_ <;> rw [htoNat]
    · exact fun h => hbackslash (Char.toNat_inj.mp h)
    · exact fun h => hquote (Char.toNat_inj.mp h)
    · exact Nat.not_lt.mp hcontrol
  · have hle := le_of_mem_utf8EncodeChar (Nat.not_lt.mp hc) hb
    refine isPlain_of_toNat ?_ ?_ ?_ <;> omega

/-- The four hexadecimal digits that are written for a control character. -/
theorem hexQuad?_of_control {n : Nat} (h : n < 32) :
    bytesOf ['0', '0', Text.digitChar (n / 16), Text.digitChar (n % 16)] =
        [48, 48, UInt8.ofNat (Text.digitChar (n / 16)).toNat,
          UInt8.ofNat (Text.digitChar (n % 16)).toNat] ∧
      hexQuad? 48 48 (UInt8.ofNat (Text.digitChar (n / 16)).toNat)
        (UInt8.ofNat (Text.digitChar (n % 16)).toNat) = some n := by
  have hall : ∀ n < 32, bytesOf ['0', '0', Text.digitChar (n / 16), Text.digitChar (n % 16)] =
        [48, 48, UInt8.ofNat (Text.digitChar (n / 16)).toNat,
          UInt8.ofNat (Text.digitChar (n % 16)).toNat] ∧
      hexQuad? 48 48 (UInt8.ofNat (Text.digitChar (n / 16)).toNat)
        (UInt8.ofNat (Text.digitChar (n % 16)).toNat) = some n := by decide
  exact hall n h

/-- What is written for a character is read as its bytes. -/
theorem stringBytes_charChars (c : Char) (s : List UInt8) :
    stringBytes none (bytesOf (charChars c) ++ s) =
      readAs (String.utf8EncodeChar c ++ ·) (stringBytes none s) := by
  unfold charChars
  split
  · next letter hletter =>
    unfold escapeLetter? at hletter
    split at hletter
    case h_8 => cases hletter
    -- Each character with a letter of its own is read back by computation.
    all_goals
      cases hletter
      rfl
  · next hnone =>
    split_ifs with hcontrol
    · obtain ⟨hbytes, hquad⟩ := hexQuad?_of_control hcontrol
      -- The number of a control character is no surrogate, so it is not held back for another.
      have hunit : surrogateStep none c.toNat = .ok (String.utf8EncodeChar c, none) := by
        unfold surrogateStep
        have hlow : (0xDC00 ≤ c.toNat && c.toNat ≤ 0xDFFF : Bool) = false := by simp; omega
        have hhigh : (0xD800 ≤ c.toNat && c.toNat ≤ 0xDBFF : Bool) = false := by simp; omega
        simp only [hlow, hhigh, Char.ofNat_toNat]
        rfl
      show stringBytes none (92 :: 117 :: (bytesOf ['0', '0', _, _] ++ s)) = _
      rw [hbytes]
      simp only [List.cons_append, List.nil_append]
      rw [stringBytes, hquad]
      simp only [hunit]
    · rw [bytesOf_cons, bytesOf_nil, List.append_nil]
      refine stringBytes_append (plain_of_utf8EncodeChar ?_ ?_ hcontrol) s
      · rintro rfl
        cases hnone
      · rintro rfl
        cases hnone

/-! ## Strings -/

theorem stringBytes_flatMap (cs : List Char) (s : List UInt8) :
    stringBytes none (bytesOf (cs.flatMap charChars) ++ 34 :: s) = .ok (bytesOf cs, s) := by
  induction cs with
  | nil => rfl
  | cons c rest ih =>
    rw [List.flatMap_cons, bytesOf_append, List.append_assoc, stringBytes_charChars, ih,
      bytesOf_cons]
    rfl

/-- The bytes of a string behind its first quotation mark. -/
def stringTail (t : String) : List UInt8 := bytesOf (t.toList.flatMap charChars) ++ [34]

theorem bytesOf_stringChars (t : String) : bytesOf (stringChars t) = 34 :: stringTail t := by
  unfold stringChars stringTail
  rw [List.cons_append, bytesOf_cons, bytesOf_append]
  rfl

/-- What is written for a string is read as the string. -/
theorem string_stringTail (t : String) (s : List UInt8) :
    string (stringTail t ++ s) = .ok (t, s) := by
  have hbytes : stringBytes none (stringTail t ++ s) = .ok (bytesOf t.toList, s) := by
    unfold stringTail
    rw [List.append_assoc]
    exact stringBytes_flatMap t.toList s
  unfold string
  rw [hbytes]
  dsimp only
  rw [fromUTF8?_bytesOf]

end TraceCollector.Json
