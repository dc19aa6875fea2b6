import Quorate.Proofs.Text.Decimal
import Quorate.Proofs.Toml.Text
import Quorate.Proofs.Traversal
import Quorate.Toml.Reader

/-!
# Documents are read back

A document that is written line by line, with keys of one part that need no quotes, is read back as the same lines. So
what is read is what the lines assemble to.
-/

namespace Quorate

namespace Toml

open Text (isDecimalDigit)

section Numbers

variable {digits : List Char} (rest : List Char)

theorem digitRun_append (hdigits : ∀ c ∈ digits, isDecimalDigit c = true) :
    digitRun isDecimalDigit (digits ++ '\n' :: rest) = (digits, '\n' :: rest) := by
  induction digits with
  | nil => rfl
  | cons c digits ih =>
    rw [List.cons_append, digitRun, if_pos (hdigits c List.mem_cons_self),
      ih fun d hd => hdigits d (List.mem_cons_of_mem c hd)]

/-- A number of fixed length ends within the digits. -/
theorem fixedNumber?_append {count n : ℕ} {left : List Char}
    (hread : fixedNumber? count (digits ++ '\n' :: rest) = some (n, left)) :
    ∃ more, left = digits.drop more ++ '\n' :: rest := by
  unfold fixedNumber? at hread
  simp only [Option.ite_none_right_eq_some, Option.some.injEq, Prod.mk.injEq] at hread
  obtain ⟨⟨hlength, hall⟩, -, rfl⟩ := hread
  have hwithin : count ≤ digits.length := by
    by_contra hlt
    have hfeed : '\n' ∈ (digits ++ '\n' :: rest).take count := by
      rw [List.take_append, List.mem_append]
      right
      obtain ⟨k, hk⟩ : ∃ k, count - digits.length = k + 1 := ⟨count - digits.length - 1, by omega⟩
      rw [hk, List.take_succ_cons]
      exact List.mem_cons_self
    have hdigit := List.all_eq_true.1 hall _ hfeed
    cases hdigit
  exact ⟨count, List.drop_append_of_le_length hwithin⟩

theorem behind?_drop_eq_none {mark : Char} (hdigits : ∀ c ∈ digits, isDecimalDigit c = true)
    (hmark : isDecimalDigit mark = false) (hfeed : mark ≠ '\n') (more : ℕ) :
    behind? mark (digits.drop more ++ '\n' :: rest) = none := by
  cases hdrop : digits.drop more with
  | nil => exact if_neg (Ne.symm hfeed)
  | cons c digits' =>
    have hc := hdigits c (List.mem_of_mem_drop (hdrop ▸ List.mem_cons_self))
    refine if_neg ?_
    rintro rfl
    rw [hc] at hmark
    cases hmark

theorem startsDate_append (hdigits : ∀ c ∈ digits, isDecimalDigit c = true) :
    startsDate (digits ++ '\n' :: rest) = false := by
  unfold startsDate
  cases hread : fixedNumber? 4 (digits ++ '\n' :: rest) with
  | none => rfl
  | some found =>
    obtain ⟨n, left⟩ := found
    obtain ⟨more, rfl⟩ := fixedNumber?_append rest hread
    change (behind? '-' (digits.drop more ++ '\n' :: rest)).isSome = false
    rw [behind?_drop_eq_none rest hdigits (by decide) (by decide)]
    rfl

theorem startsTime_append (hdigits : ∀ c ∈ digits, isDecimalDigit c = true) :
    startsTime (digits ++ '\n' :: rest) = false := by
  unfold startsTime
  cases hread : twoDigits? 0 23 (digits ++ '\n' :: rest) with
  | none => rfl
  | some found =>
    obtain ⟨n, left⟩ := found
    obtain ⟨more, rfl⟩ := fixedNumber?_append rest (Option.filter_eq_some_iff.1 hread).1
    change (behind? ':' (digits.drop more ++ '\n' :: rest)).isSome = false
    rw [behind?_drop_eq_none rest hdigits (by decide) (by decide)]
    rfl

theorem whole?_toDigits (n : ℕ) :
    whole? (Nat.toDigits 10 n ++ '\n' :: rest) = some (Nat.toDigits 10 n, '\n' :: rest) := by
  by_cases hn : n = 0
  · rw [hn]
    rfl
  · have hhead := Text.head?_toDigits hn
    have hdigits : ∀ c ∈ Nat.toDigits 10 n, isDecimalDigit c = true := fun _ => Text.isDecimalDigit_of_mem_toDigits
    have hrun := digitRun_append rest hdigits
    cases hcs : Nat.toDigits 10 n with
    | nil => exact absurd hcs Nat.toDigits_ne_nil
    | cons c cs =>
      rw [hcs] at hhead hdigits hrun
      have hc : c ≠ '0' := fun h => hhead (congrArg some h)
      have hfirst : ((c :: cs ++ '\n' :: rest).head?.any isDecimalDigit) = true := hdigits c List.mem_cons_self
      unfold whole?
      split
      · rename_i heq
        exact absurd (List.cons.inj heq).1 hc
      · rw [digits?, if_pos hfirst, hrun]

theorem sign_of_isDecimalDigit {c : Char} {cs : List Char} (hc : isDecimalDigit c = true) :
    sign (c :: cs) = (false, c :: cs) := by
  unfold sign
  split
  · rename_i heq
    exact absurd (List.cons.inj heq).1 (Text.ne_of_isDecimalDigit hc (by decide))
  · rename_i heq
    exact absurd (List.cons.inj heq).1 (Text.ne_of_isDecimalDigit hc (by decide))
  · rfl

/-- Behind a sign or none, digits up to the end of the line are an integer if it is in range. -/
theorem decimal?_of_sign {cs : List Char} {negative : Bool} {n : ℕ}
    (hsign : sign cs = (negative, Nat.toDigits 10 n ++ '\n' :: rest)) :
    decimal? cs = (integer? negative n).map (·, '\n' :: rest) := by
  have hwhole := whole?_toDigits rest n
  have hvalue := Text.ofDecimal_toDigits n
  obtain ⟨c, digits, hcs, hc⟩ := Text.exists_toDigits_eq_cons n
  rw [hcs, List.cons_append] at hwhole hsign
  rw [hcs] at hvalue
  unfold decimal?
  rw [hsign]
  split
  · rename_i heq
    exact absurd (List.cons.inj (Prod.mk.inj heq).2).1 (Text.ne_of_isDecimalDigit hc (by decide))
  · rename_i heq
    exact absurd (List.cons.inj (Prod.mk.inj heq).2).1 (Text.ne_of_isDecimalDigit hc (by decide))
  · rename_i heq
    obtain ⟨rfl, rfl⟩ := Prod.mk.inj heq
    simp only [hwhole, fraction?, exponent?, bind, Option.bind, hvalue]
    cases integer? negative n <;> rfl

theorem number?_toDigits (n : ℕ) :
    number? (Nat.toDigits 10 n ++ '\n' :: rest) = (integer? false n).map (·, '\n' :: rest) := by
  have hsign : sign (Nat.toDigits 10 n ++ '\n' :: rest) = (false, Nat.toDigits 10 n ++ '\n' :: rest) := by
    obtain ⟨c, digits, hcs, hc⟩ := Text.exists_toDigits_eq_cons n
    rw [hcs, List.cons_append, sign_of_isDecimalDigit hc]
  -- Behind a zero at the start stands the end of the line, so it marks no other base.
  have hmark : ∀ c tail, isDecimalDigit c = false → c ≠ '\n' → Nat.toDigits 10 n ++ '\n' :: rest ≠ '0' :: c :: tail := by
    intro c tail hc hfeed heq
    by_cases hzero : n = 0
    · rw [hzero, Nat.toDigits_zero] at heq
      exact hfeed (List.cons.inj (List.cons.inj heq).2).1.symm
    · apply Text.head?_toDigits hzero
      have hhead := congrArg List.head? heq
      rwa [List.head?_append_of_ne_nil _ Nat.toDigits_ne_nil] at hhead
  unfold number?
  split
  · rename_i heq
    exact absurd heq (hmark _ _ (by decide) (by decide))
  · rename_i heq
    exact absurd heq (hmark _ _ (by decide) (by decide))
  · rename_i heq
    exact absurd heq (hmark _ _ (by decide) (by decide))
  · exact decimal?_of_sign rest hsign

theorem number?_minus (n : ℕ) :
    number? ('-' :: (Nat.toDigits 10 n ++ '\n' :: rest)) = (integer? true n).map (·, '\n' :: rest) :=
  decimal?_of_sign rest rfl

end Numbers

section Values

variable {room fuel : ℕ} {c : Char} {cs rest : List Char}

theorem value?_of_isDecimalDigit (hc : isDecimalDigit c = true) : value? room (fuel + 1) (c :: cs) =
    if startsDate (c :: cs) || startsTime (c :: cs) then (afterMoment? (c :: cs)).map (.moment, ·)
    else number? (c :: cs) := by
  rw [value?] <;>
    · intro tail heq
      exact Text.ne_of_isDecimalDigit hc (by decide) (List.cons.inj heq).1

/-- Digits up to the end of the line begin no date and no time, so they are an integer if it is in range. -/
theorem value?_toDigits (n : ℕ) : value? room (fuel + 1) (Nat.toDigits 10 n ++ '\n' :: rest) =
    (integer? false n).map (·, '\n' :: rest) := by
  have hdigits : ∀ c ∈ Nat.toDigits 10 n, isDecimalDigit c = true := fun _ => Text.isDecimalDigit_of_mem_toDigits
  have hdate := startsDate_append rest hdigits
  have htime := startsTime_append rest hdigits
  have hnumber := number?_toDigits rest n
  obtain ⟨c, cs, hcs, hc⟩ := Text.exists_toDigits_eq_cons n
  rw [hcs, List.cons_append] at hdate htime hnumber ⊢
  rw [value?_of_isDecimalDigit hc, hdate, htime, hnumber]
  rfl

theorem head?_writeText (s : List Char) : (writeText s).head? = some '"' ∨ (writeText s).head? = some '\'' := by
  unfold writeText openMultiline
  simp only
  split_ifs <;> simp

theorem value?_writeText (s : List Char) :
    value? room (fuel + 1) (writeText s ++ '\n' :: rest) = some (.text (String.ofList s), '\n' :: rest) := by
  have hquoted := quoted?_writeText s rest
  have hhead := head?_writeText s
  cases htext : writeText s with
  | nil => simp [htext] at hhead
  | cons c cs =>
    rw [htext] at hquoted hhead
    rcases hhead with hc | hc
    · obtain rfl := Option.some.inj hc
      rw [List.cons_append] at hquoted ⊢
      rw [value?, hquoted]
      rfl
    · obtain rfl := Option.some.inj hc
      rw [List.cons_append] at hquoted ⊢
      rw [value?, hquoted]
      rfl

theorem value?_noItems :
    value? (room + 1) (fuel + 2) ('[' :: ']' :: '\n' :: rest) = some (.list [], '\n' :: rest) := by
  rfl

/-- What is written behind a key is read back, at the end of a line. -/
theorem value?_write (room fuel : ℕ) {p : Plain} (hp : p.checkNumber = .ok ()) :
    value? (room + 1) (fuel + 2) (p.write ++ '\n' :: rest) = some (p.toValue, '\n' :: rest) := by
  cases p with
  | number n =>
    have hn : n < Value.signedBound := by
      by_contra hge
      rw [Plain.checkNumber, if_neg hge] at hp
      cases hp
    have hinteger : integer? false n = some (.int n) := if_pos hn
    rw [Plain.write, value?_toDigits, hinteger]
    rfl
  | text s =>
    rw [Plain.write, value?_writeText, String.ofList_toList]
    rfl
  | noItems => exact value?_noItems

end Values

section Lines

variable {V : Type} {fuel : ℕ} {key : String} {c : Char} {cs rest : List Char}

/-- Whether a key is one part that needs no quotes. -/
def BareKey (key : String) : Prop :=
  key.toList ≠ [] ∧ ∀ c ∈ key.toList, isBare c = true

instance : Decidable (BareKey key) :=
  inferInstanceAs (Decidable (_ ∧ _))

namespace Line

/-- Whether the key on a line is one part that needs no quotes. -/
def Simple : Line V → Prop
  | entry path key _ | table path key | element path key => path = [] ∧ BareKey key

instance : DecidablePred (Simple (V := V))
  | entry .. | table .. | element .. => inferInstanceAs (Decidable (_ ∧ _))

/-- The line that is read where `l` was written. -/
def toValue : Line Plain → Line Value
  | entry path key value => .entry path key value.toValue
  | table path key => .table path key
  | element path key => .element path key

end Line

theorem BareKey.exists_cons (hkey : BareKey key) : ∃ c cs, key.toList = c :: cs ∧ isBare c = true := by
  obtain ⟨c, cs, hcs⟩ := List.exists_cons_of_ne_nil hkey.1
  exact ⟨c, cs, hcs, hkey.2 c (hcs ▸ List.mem_cons_self)⟩

theorem BareKey.append_ne (hkey : BareKey key) {mark : Char} (hmark : isBare mark = false) :
    key.toList ++ cs ≠ mark :: rest := by
  obtain ⟨d, ds, hds, hd⟩ := hkey.exists_cons
  intro heq
  rw [hds] at heq
  rw [(List.cons.inj heq).1, hmark] at hd
  cases hd

theorem skipSpace_of_not_isSpace (h : isSpace c = false) : skipSpace (c :: cs) = c :: cs := by
  simp [skipSpace, h]

theorem isSpace_of_isBare (hc : isBare c = true) : isSpace c = false := by
  cases hspace : isSpace c with
  | false => rfl
  | true =>
    rw [isSpace, Bool.or_eq_true, beq_iff_eq, beq_iff_eq] at hspace
    rcases hspace with rfl | rfl <;> cases hc

theorem isSpace_of_isDecimalDigit (hc : isDecimalDigit c = true) : isSpace c = false :=
  isSpace_of_isBare (by rw [isBare, hc]; rfl)

theorem dottedKey?_append (hkey : BareKey key) (rest : List Char) (hc : isBare c = false)
    (hdot : (skipSpace (c :: rest)).head? ≠ some '.') :
    dottedKey? (key.toList ++ c :: rest) = some ([], key, skipSpace (c :: rest)) := by
  obtain ⟨d, ds, hds, hd⟩ := hkey.exists_cons
  have htake : (key.toList ++ c :: rest).takeWhile isBare = key.toList := by
    rw [List.takeWhile_append_of_pos hkey.2]
    simp [hc]
  have hdrop : (key.toList ++ c :: rest).dropWhile isBare = c :: rest := by
    rw [List.dropWhile_append_of_pos hkey.2]
    simp [hc]
  have hpart : simpleKey? (key.toList ++ c :: rest) = some (key, c :: rest) := by
    unfold simpleKey?
    rw [htake, hdrop]
    split
    · rename_i heq
      exact absurd heq (hkey.append_ne (by decide))
    · rename_i heq
      exact absurd heq (hkey.append_ne (by decide))
    · have hempty : key.toList.isEmpty = false := List.isEmpty_eq_false_iff.2 hkey.1
      simp only [hempty, Bool.false_eq_true, if_false, String.ofList_toList]
  have hskip : skipSpace (key.toList ++ c :: rest) = key.toList ++ c :: rest := by
    rw [hds, List.cons_append, skipSpace_of_not_isSpace (isSpace_of_isBare hd)]
  change key? 79 _ = _
  rw [key?, hskip, hpart]
  simp only [bind, Option.bind]
  split
  · rename_i heq
    rw [heq] at hdot
    exact absurd rfl hdot
  · rfl

theorem isSpace_head_write (p : Plain) : ∃ c cs, p.write = c :: cs ∧ isSpace c = false := by
  cases p with
  | number n =>
    obtain ⟨c, cs, hcs, hc⟩ := Text.exists_toDigits_eq_cons n
    exact ⟨c, cs, hcs, isSpace_of_isDecimalDigit hc⟩
  | text s =>
    have hhead := head?_writeText s.toList
    rw [Plain.write]
    cases htext : writeText s.toList with
    | nil => simp [htext] at hhead
    | cons c cs =>
      rw [htext] at hhead
      refine ⟨c, cs, rfl, ?_⟩
      rcases hhead with hc | hc <;> obtain rfl := Option.some.inj hc <;> rfl
  | noItems => exact ⟨'[', [']'], rfl, rfl⟩

/-- A line with a bare key is what is read behind the key. -/
theorem line?_keyed (hkey : BareKey key) (hc : isSpace c = false) (cs : List Char) :
    line? (key.toList ++ ' ' :: '=' :: ' ' :: c :: cs) =
      (value? (maxDepth - 1) (2 * (' ' :: c :: cs).length + 1) (c :: cs)).bind fun (v, rest) =>
        (lineEnd? rest).map (.entry [] key v, ·) := by
  have hdotted := dottedKey?_append (c := ' ') hkey ('=' :: ' ' :: c :: cs) rfl nofun
  have hskip : skipSpace (' ' :: c :: cs) = c :: cs := skipSpace_of_not_isSpace hc
  have hequals : skipSpace (' ' :: '=' :: ' ' :: c :: cs) = '=' :: ' ' :: c :: cs := rfl
  unfold line?
  split
  · rename_i heq
    exact absurd heq (hkey.append_ne (by decide))
  · rename_i heq
    exact absurd heq (hkey.append_ne (by decide))
  · rw [hdotted, hequals]
    simp only [bind, Option.bind, behind?, if_true, hskip]
    cases value? (maxDepth - 1) (2 * (' ' :: c :: cs).length + 1) (c :: cs) with
    | none => rfl
    | some found => cases h : lineEnd? found.2 <;> simp [h]

theorem line?_entry (rest : List Char) (hkey : BareKey key) {p : Plain} (hp : p.checkNumber = .ok ()) :
    line? (key.toList ++ ' ' :: '=' :: ' ' :: (p.write ++ '\n' :: rest)) = some (.entry [] key p.toValue, rest) := by
  have hvalue : value? (maxDepth - 1) (2 * (' ' :: (p.write ++ '\n' :: rest)).length + 1) (p.write ++ '\n' :: rest) =
      some (p.toValue, '\n' :: rest) :=
    value?_write 78 (2 * (p.write ++ '\n' :: rest).length + 1) hp
  obtain ⟨c, cs, hcs, hc⟩ := isSpace_head_write p
  rw [hcs, List.cons_append] at hvalue ⊢
  rw [line?_keyed hkey hc, hvalue]
  rfl

theorem line?_table (hkey : BareKey key) :
    line? ('[' :: (key.toList ++ ']' :: '\n' :: rest)) = some (.table [] key, rest) := by
  have hdotted := dottedKey?_append (c := ']') hkey ('\n' :: rest) rfl nofun
  unfold line?
  split
  · rename_i heq
    exact absurd (List.cons.inj heq).2 (hkey.append_ne (by decide))
  · rename_i heq
    obtain rfl := (List.cons.inj heq).2
    rw [hdotted]
    rfl
  · rename_i hheader
    exact absurd rfl (hheader _)

theorem line?_element (hkey : BareKey key) :
    line? ('[' :: '[' :: (key.toList ++ ']' :: ']' :: '\n' :: rest)) = some (.element [] key, rest) := by
  have hdotted := dottedKey?_append (c := ']') hkey (']' :: '\n' :: rest) rfl nofun
  rw [line?, hdotted]
  rfl

variable {lines : List (Line Plain)}

/-- A line that says something is read, and then the lines that follow it. -/
theorem lines?_cons (hc : isSpace c = false) (hfeed : c ≠ '\n') (hreturn : c ≠ '\r') (hcomment : c ≠ '#') :
    lines? (fuel + 1) (c :: cs) =
      (line? (c :: cs)).bind fun (line, rest) => (lines? fuel rest).map (line :: ·) := by
  rw [lines?, skipSpace_of_not_isSpace hc]
  split
  · rename_i heq
    cases heq
  · rename_i heq
    exact absurd (List.cons.inj heq).1 hfeed
  · rename_i heq
    exact absurd (List.cons.inj heq).1 hreturn
  · rename_i heq
    exact absurd (List.cons.inj heq).1 hcomment
  · cases line? (c :: cs) with
    | none => rfl
    | some found => cases h : lines? fuel found.2 <;> simp [h]

theorem lines?_keyed (hkey : BareKey key) : lines? (fuel + 1) (key.toList ++ cs) =
    (line? (key.toList ++ cs)).bind fun (line, rest) => (lines? fuel rest).map (line :: ·) := by
  obtain ⟨d, ds, hds, hd⟩ := hkey.exists_cons
  have hother : ∀ mark, isBare mark = false → d ≠ mark := by
    rintro mark hmark rfl
    rw [hd] at hmark
    cases hmark
  rw [hds, List.cons_append]
  exact lines?_cons (isSpace_of_isBare hd) (hother _ (by decide)) (hother _ (by decide)) (hother _ (by decide))

theorem lines?_entry (hkey : BareKey key) {p : Plain} (hp : p.checkNumber = .ok ()) :
    lines? (fuel + 1) ((Line.entry [] key p).write ++ rest) =
      (lines? fuel rest).map (.entry [] key p.toValue :: ·) := by
  have hwrite : (Line.entry [] key p).write ++ rest = key.toList ++ ' ' :: '=' :: ' ' :: (p.write ++ '\n' :: rest) := by
    simp [Line.write, writeKey]
  rw [hwrite, lines?_keyed hkey, line?_entry rest hkey hp]
  rfl

theorem lines?_blank : lines? (fuel + 1) ('\n' :: cs) = lines? fuel cs :=
  rfl

theorem lines?_table (hkey : BareKey key) : lines? (fuel + 2) ((Line.table (V := Plain) [] key).write ++ rest) =
    (lines? fuel rest).map (.table [] key :: ·) := by
  have hwrite : (Line.table (V := Plain) [] key).write ++ rest = '\n' :: '[' :: (key.toList ++ ']' :: '\n' :: rest) := by
    simp [Line.write, writeKey]
  rw [hwrite, lines?_blank]
  rw [lines?_cons rfl (by decide) (by decide) (by decide), line?_table hkey]
  rfl

theorem lines?_element (hkey : BareKey key) : lines? (fuel + 2) ((Line.element (V := Plain) [] key).write ++ rest) =
    (lines? fuel rest).map (.element [] key :: ·) := by
  have hwrite : (Line.element (V := Plain) [] key).write ++ rest =
      '\n' :: '[' :: '[' :: (key.toList ++ ']' :: ']' :: '\n' :: rest) := by
    simp [Line.write, writeKey]
  rw [hwrite, lines?_blank]
  rw [lines?_cons rfl (by decide) (by decide) (by decide), line?_element hkey]
  rfl

/-- What is written of lines is read back as these lines. Every line takes less fuel than it has characters. -/
theorem lines?_write (hsimple : ∀ line ∈ lines, line.Simple)
    (hnumbers : ∀ line ∈ lines, ∀ p ∈ line.value?, p.checkNumber = .ok ())
    (hfuel : (lines.flatMap Line.write).length < fuel) :
    lines? fuel (lines.flatMap Line.write) = some (lines.map Line.toValue) := by
  induction lines generalizing fuel with
  | nil =>
    obtain ⟨fuel, rfl⟩ := Nat.exists_eq_succ_of_ne_zero (Nat.ne_of_gt hfuel)
    rfl
  | cons line lines ih =>
    have hrest {fuel : ℕ} (hfuel : (lines.flatMap Line.write).length < fuel) :=
      ih (fun l hl => hsimple l (List.mem_cons_of_mem line hl))
        (fun l hl => hnumbers l (List.mem_cons_of_mem line hl)) hfuel
    rw [List.flatMap_cons, List.length_append] at hfuel
    rw [List.flatMap_cons, List.map_cons]
    cases line with
    | entry path key p =>
      obtain ⟨rfl, hkey⟩ := hsimple _ List.mem_cons_self
      have hp := hnumbers _ List.mem_cons_self p rfl
      obtain ⟨fuel, rfl⟩ : ∃ k, fuel = k + 1 := ⟨fuel - 1, by omega⟩
      have hlength : 1 ≤ (Line.entry [] key p).write.length := by
        simp [Line.write]
        omega
      rw [lines?_entry hkey hp, hrest (by omega)]
      rfl
    | table path key =>
      obtain ⟨rfl, hkey⟩ := hsimple _ List.mem_cons_self
      have hlength : 2 ≤ (Line.table (V := Plain) [] key).write.length := by simp [Line.write]
      obtain ⟨fuel, rfl⟩ : ∃ k, fuel = k + 2 := ⟨fuel - 2, by omega⟩
      rw [lines?_table hkey, hrest (by omega)]
      rfl
    | element path key =>
      obtain ⟨rfl, hkey⟩ := hsimple _ List.mem_cons_self
      have hlength : 2 ≤ (Line.element (V := Plain) [] key).write.length := by simp [Line.write]
      obtain ⟨fuel, rfl⟩ : ∃ k, fuel = k + 2 := ⟨fuel - 2, by omega⟩
      rw [lines?_element hkey, hrest (by omega)]
      rfl

theorem dropByteOrderMark_keyed (hkey : BareKey key) :
    dropByteOrderMark (key.toList ++ cs) = key.toList ++ cs := by
  unfold dropByteOrderMark
  split
  · rename_i heq
    exact absurd heq (hkey.append_ne (by decide))
  · rfl

theorem dropByteOrderMark_write (hsimple : ∀ line ∈ lines, line.Simple) :
    dropByteOrderMark (lines.flatMap Line.write) = lines.flatMap Line.write := by
  cases lines with
  | nil => rfl
  | cons line lines =>
    rw [List.flatMap_cons]
    cases line with
    | entry path key p =>
      obtain ⟨rfl, hkey⟩ := hsimple _ List.mem_cons_self
      rw [Line.write, writeKey, List.flatMap_nil, List.nil_append, List.append_assoc, List.append_assoc,
        List.append_assoc]
      exact dropByteOrderMark_keyed hkey
    | table path key => rfl
    | element path key => rfl

/-- What can be written behind a key. -/
def Plain.Writable (p : Plain) : Prop :=
  p.checkNumber = .ok () ∧ p.checkText = .ok ()

theorem Plain.writable_number_iff {n : ℕ} : (number n).Writable ↔ n < Value.signedBound := by
  simp [Writable, checkNumber, checkText]

/-- No more than 255 equal quotes stand in a row. -/
def Quotable (s : String) : Prop :=
  ∀ quote ∈ ['"', '\''], ¬ List.replicate 256 quote <:+: s.toList

theorem Plain.writable_text_iff {s : String} : (text s).Writable ↔ Quotable s := by
  have hruns : (text s).Writable ↔ ∀ quote ∈ ['"', '\''], longestRun quote 0 s.toList ≤ quoteLimit := by
    simp [Writable, checkNumber, checkText]
  exact hruns.trans (forall₂_congr fun _ _ => longestRun_le_iff)

theorem quotable_of_isBare {s : String} (h : ∀ c ∈ s.toList, isBare c = true) : Quotable s := by
  intro quote hquote hrow
  have hbare := h quote (hrow.subset (List.mem_replicate.2 ⟨by decide, rfl⟩))
  rcases List.mem_pair.1 hquote with rfl | rfl <;> cases hbare

theorem Plain.writable_noItems : noItems.Writable :=
  ⟨rfl, rfl⟩

theorem write_eq_ok_iff {document : String} : write lines = .ok document ↔
    (∀ p ∈ lines.filterMap Line.value?, p.Writable) ∧ document = String.ofList (lines.flatMap Line.write) := by
  unfold write
  constructor
  · intro h
    obtain ⟨_, hnumbers, h⟩ := bind_eq_ok h
    obtain ⟨_, htexts, h⟩ := bind_eq_ok h
    cases h
    exact ⟨fun p hp => ⟨forM_eq_ok_iff.1 hnumbers p hp, forM_eq_ok_iff.1 htexts p hp⟩, rfl⟩
  · rintro ⟨hvalues, rfl⟩
    have hnumbers := forM_eq_ok_iff.2 fun p hp => (hvalues p hp).1
    have htexts := forM_eq_ok_iff.2 fun p hp => (hvalues p hp).2
    simp only [hnumbers, htexts]
    rfl

/-- A document that was written is read back as what its lines assemble to. -/
theorem read?_write {document : String} (hsimple : ∀ line ∈ lines, line.Simple)
    (h : write lines = .ok document) : read? document = assemble? (lines.map Line.toValue) := by
  obtain ⟨hvalues, rfl⟩ := write_eq_ok_iff.1 h
  have hnumbers : ∀ line ∈ lines, ∀ p ∈ line.value?, p.checkNumber = .ok () :=
    fun line hline p hp => (hvalues p (List.mem_filterMap.2 ⟨line, hline, hp⟩)).1
  rw [read?, String.toList_ofList, dropByteOrderMark_write hsimple,
    lines?_write hsimple hnumbers (Nat.lt_succ_self _)]
  rfl

end Lines

end Toml

end Quorate
