import Quorate.Proofs.Toml.OneLineText

/-!
# Quoted texts are read back

Whatever its quotes, line ends and control characters, a text is read back from the quotes it is written in. Where quotes
stand at the end of a text of several lines, the reader finds them together with the closing quotes and tells them apart
by their number.
-/

namespace Quorate.Toml

section Closing

variable {quote : Char} {k : ℕ} {cs rest : List Char}

theorem takeWhile_replicate_append (hrest : rest.head? ≠ some quote) :
    (List.replicate k quote ++ rest).takeWhile (· == quote) = List.replicate k quote := by
  have hstop : rest.takeWhile (· == quote) = [] := by
    cases rest with
    | nil => rfl
    | cons c rest =>
      have hc : c ≠ quote := fun h => hrest (congrArg some h)
      simp [hc]
  rw [List.takeWhile_append_of_pos (by simp), hstop, List.append_nil]

/-- Up to two quotes before the closing ones belong to the text. -/
theorem closing?_replicate (hk : k ≤ 2) (hrest : rest.head? ≠ some quote) :
    closing? quote (List.replicate (k + 3) quote ++ rest) = some (List.replicate k quote, rest) := by
  have hmin : min (k + 3) 5 = k + 3 := by omega
  have hmin' : min (k + 3 - 3) 2 = k := by omega
  have hroom : ¬ k + 3 < 3 := by omega
  simp only [closing?, takeWhile_replicate_append hrest, List.length_replicate, if_neg hroom, hmin, hmin']
  rw [List.drop_left' (List.length_replicate ..)]

theorem closing?_eq_none (h : (cs.takeWhile (· == quote)).length ≤ 2) : closing? quote cs = none :=
  if_pos (by omega)

theorem closing?_cons_of_ne {c : Char} (h : c ≠ quote) : closing? quote (c :: rest) = none := by
  apply closing?_eq_none
  simp [h]

end Closing

section SeveralLines

variable {c d : Char} {cs rest s tail : List Char} {escape : Escape} {run : ℕ}

/-- What may follow a backslash in a text of several lines and is no escape, is none on one line. -/
theorem not_folding_of_beginEscape {step : EscapeStep} (h : beginEscape c = some step) :
    isSpace c = false ∧ c ≠ '\n' ∧ c ≠ '\r' := by
  refine ⟨?_, ?_, ?_⟩
  · cases hspace : isSpace c with
    | false => rfl
    | true =>
      rw [isSpace, Bool.or_eq_true, beq_iff_eq, beq_iff_eq] at hspace
      rcases hspace with rfl | rfl <;> cases h
  · rintro rfl
    cases h
  · rintro rfl
    cases h

theorem multilineBasicTail?_escaped (h : escaped? escape cs = some d) :
    multilineBasicTail? escape (cs ++ rest) =
      (multilineBasicTail? .none rest).map fun (s, rest) => (d :: s, rest) := by
  refine read_escaped ?_ ?_ h
  · intro c step rest hstep
    obtain ⟨hspace, hline, hreturn⟩ := not_folding_of_beginEscape hstep
    rw [multilineBasicTail?, hspace, if_neg Bool.false_ne_true, if_neg hline, if_neg hreturn, hstep]
    cases step <;> rfl
  · intro left number c step rest hstep
    rw [multilineBasicTail?, hstep]
    cases step <;> rfl

theorem multilineBasicTail?_backslash (rest : List Char) (h : escaped? .begun cs = some d) :
    multilineBasicTail? .none ('\\' :: (cs ++ rest)) =
      (multilineBasicTail? .none rest).map fun (s, rest) => (d :: s, rest) := by
  have hclosing : closing? '"' ('\\' :: (cs ++ rest)) = none := closing?_cons_of_ne (by decide)
  rw [← multilineBasicTail?_escaped h]
  simp only [multilineBasicTail?, hclosing]
  rfl

theorem multilineBasicTail?_plain (hclosing : closing? '"' (c :: rest) = none) (hreturn : c ≠ '\r')
    (hbackslash : c ≠ '\\') (hplain : c = '\n' ∨ isPrintable c = true) :
    multilineBasicTail? .none (c :: rest) = (multilineBasicTail? .none rest).map fun (s, rest) => (c :: s, rest) := by
  have hplain' : (decide (c = '\n') || isPrintable c) = true := by simpa using hplain
  simp only [multilineBasicTail?, hclosing, if_neg hreturn, if_neg hbackslash, hplain', if_true]
  rfl

theorem ne_return_of_isPrintable (h : isPrintable c = true) : c ≠ '\r' := by
  rintro rfl
  cases h

theorem takeWhile_escapeChar (hquote : c ≠ '"') (hline : c ≠ '\n') :
    (escapeChar c ++ tail).takeWhile (· == '"') = [] := by
  rcases escapeChar_cases c hline with ⟨hplain, -, -⟩ | ⟨cs, hescape, -⟩
  · simp [hplain, hquote]
  · simp [hescape]

/-- Either only quotes are left, and they are too few for one of them to be escaped, or no three quotes follow each
other where the text goes on. -/
theorem escapeMultiline_quotes (hrun : run ≤ 2) (s tail : List Char) :
    (∃ k, run + k ≤ 2 ∧ s = List.replicate k '"') ∨
      run + ((escapeMultiline run s ++ tail).takeWhile (· == '"')).length ≤ 2 := by
  induction s generalizing run with
  | nil => exact .inl ⟨0, hrun, rfl⟩
  | cons c s ih =>
    rw [escapeMultiline]
    by_cases hquote : c = '"'
    · rw [if_pos hquote]
      by_cases hfew : run < 2
      · rw [if_pos hfew]
        have hnext : run + 1 ≤ 2 := hfew
        rcases ih hnext with ⟨k, hk, rfl⟩ | hquotes
        · exact .inl ⟨k + 1, by omega, by rw [hquote, List.replicate_succ]⟩
        · right
          rw [List.cons_append, List.takeWhile_cons_of_pos (by rfl), List.length_cons]
          omega
      · rw [if_neg hfew]
        exact .inr (by simpa using hrun)
    · right
      rw [if_neg hquote]
      split
      · simpa using hrun
      · rename_i hline
        rw [List.append_assoc, takeWhile_escapeChar hquote hline]
        exact hrun

theorem escapeMultiline_replicate {k : ℕ} (hk : run + k ≤ 2) :
    escapeMultiline run (List.replicate k '"') = List.replicate k '"' := by
  induction k generalizing run with
  | zero => rfl
  | succ k ih =>
    have hfew : run < 2 := by omega
    rw [List.replicate_succ, escapeMultiline, if_pos rfl, if_pos hfew, ih (by omega)]

theorem multilineBasicTail?_quotes {k : ℕ} (hk : k ≤ 2) (hrest : rest.head? ≠ some '"') :
    multilineBasicTail? .none (List.replicate (k + 3) '"' ++ rest) = some (List.replicate k '"', rest) := by
  have hclosing := closing?_replicate hk hrest
  rw [List.replicate_succ, List.cons_append] at hclosing ⊢
  simp only [multilineBasicTail?, hclosing]
  rfl

/-- A text in double quotes on several lines is read back, from any place in it. -/
theorem multilineBasicTail?_escapeMultiline (hrun : run ≤ 2) (hrest : rest.head? ≠ some '"') (s : List Char) :
    multilineBasicTail? .none (escapeMultiline run s ++ (List.replicate 3 '"' ++ rest)) = some (s, rest) := by
  induction s generalizing run with
  | nil => exact multilineBasicTail?_quotes (Nat.zero_le 2) hrest
  | cons c s ih =>
    rcases escapeMultiline_quotes hrun (c :: s) (List.replicate 3 '"' ++ rest) with ⟨k, hk, hs⟩ | hquotes
    · rw [hs, escapeMultiline_replicate hk, ← List.append_assoc, List.replicate_append_replicate]
      exact multilineBasicTail?_quotes (by omega) hrest
    · have hclosing := closing?_eq_none (Nat.le_of_add_left_le hquotes)
      rw [escapeMultiline] at hclosing ⊢
      by_cases hquote : c = '"'
      · subst hquote
        rw [if_pos rfl] at hclosing ⊢
        by_cases hfew : run < 2
        · rw [if_pos hfew, List.cons_append] at hclosing ⊢
          rw [multilineBasicTail?_plain hclosing (by decide) (by decide) (.inr rfl), ih hfew]
          rfl
        · rw [if_neg hfew]
          have hescape : escaped? .begun ['"'] = some '"' := rfl
          have hread := multilineBasicTail?_backslash (escapeMultiline 0 s ++ (List.replicate 3 '"' ++ rest)) hescape
          rw [ih (Nat.zero_le 2)] at hread
          exact hread
      · rw [if_neg hquote] at hclosing ⊢
        by_cases hline : c = '\n'
        · subst hline
          rw [if_pos rfl, List.cons_append] at hclosing ⊢
          rw [multilineBasicTail?_plain hclosing (by decide) (by decide) (.inl rfl), ih (Nat.zero_le 2)]
          rfl
        · rw [if_neg hline, List.append_assoc] at hclosing ⊢
          rcases escapeChar_cases c hline with ⟨hplain, hprintable, hbackslash⟩ | ⟨cs, hescape, hread⟩
          · rw [hplain, List.singleton_append] at hclosing ⊢
            rw [multilineBasicTail?_plain hclosing (ne_return_of_isPrintable hprintable) hbackslash (.inr hprintable),
              ih (Nat.zero_le 2)]
            rfl
          · rw [hescape, List.cons_append, multilineBasicTail?_backslash _ hread, ih (Nat.zero_le 2)]
            rfl

theorem length_takeWhile_add_le_longestRun (quote : Char) (run : ℕ) (s : List Char) :
    run + (s.takeWhile (· == quote)).length ≤ longestRun quote run s := by
  induction s generalizing run with
  | nil => exact le_rfl
  | cons c s ih =>
    rw [longestRun]
    by_cases hc : c = quote
    · have hle := ih (run + 1)
      rw [if_pos hc, List.takeWhile_cons_of_pos (by simpa using hc), List.length_cons]
      omega
    · rw [if_neg hc, List.takeWhile_cons_of_neg (by simpa using hc)]
      exact le_max_left _ _

theorem longestRun_le_longestRun (quote : Char) {run run' : ℕ} (h : run ≤ run') (s : List Char) :
    longestRun quote run s ≤ longestRun quote run' s := by
  induction s generalizing run run' with
  | nil => exact h
  | cons c s ih =>
    rw [longestRun, longestRun]
    split
    · exact ih (Nat.succ_le_succ h)
    · exact max_le_max h le_rfl

theorem longestRun_tail_le (quote c : Char) (s : List Char) : longestRun quote 0 s ≤ longestRun quote 0 (c :: s) := by
  rw [longestRun]
  split
  · exact longestRun_le_longestRun quote (Nat.zero_le _) s
  · exact le_max_right _ _

section Runs

variable {quote : Char} {n : ℕ}

theorem replicate_prefix_append_iff (hd : d ≠ quote) :
    List.replicate n quote <+: List.replicate run quote ++ d :: s ↔ n ≤ run := by
  induction n generalizing run with
  | zero => simp
  | succ n ih =>
    cases run with
    | zero => simp [List.replicate_succ, hd.symm]
    | succ run =>
      rw [List.replicate_succ, List.replicate_succ, List.cons_append, List.cons_prefix_cons, ih, Nat.succ_le_succ_iff]
      exact and_iff_right rfl

/-- Characters in a row stand before another character or behind it. -/
theorem replicate_infix_append_iff (hd : d ≠ quote) :
    List.replicate (n + 1) quote <:+: List.replicate run quote ++ d :: s ↔
      n < run ∨ List.replicate (n + 1) quote <:+: s := by
  induction run with
  | zero =>
    rw [List.replicate_zero, List.nil_append, List.infix_cons_iff, List.replicate_succ, List.cons_prefix_cons]
    simp [hd.symm]
  | succ run ih =>
    have hprefix : List.replicate (n + 1) quote <+: List.replicate (run + 1) quote ++ d :: s ↔ n + 1 ≤ run + 1 :=
      replicate_prefix_append_iff hd
    rw [List.replicate_succ (n := run), List.cons_append] at hprefix ⊢
    rw [List.infix_cons_iff, hprefix, ih, ← or_assoc]
    refine or_congr ?_ Iff.rfl
    omega

/-- The longest run is longer than `n` if more than `n` in a row stand somewhere. -/
theorem lt_longestRun_iff : n < longestRun quote run s ↔
    List.replicate (n + 1) quote <:+: List.replicate run quote ++ s := by
  induction s generalizing run with
  | nil =>
    rw [longestRun, List.append_nil]
    constructor
    · intro h
      refine ⟨[], List.replicate (run - (n + 1)) quote, ?_⟩
      rw [List.nil_append, List.replicate_append_replicate, Nat.add_sub_cancel' h]
    · intro h
      simpa using h.length_le
  | cons c s ih =>
    rw [longestRun]
    by_cases hc : c = quote
    · rw [if_pos hc, ih, hc, List.replicate_succ' (n := run), List.append_assoc, List.singleton_append]
    · rw [if_neg hc, replicate_infix_append_iff hc, lt_max_iff, ih]
      rfl

theorem longestRun_le_iff : longestRun quote 0 s ≤ n ↔ ¬ List.replicate (n + 1) quote <:+: s := by
  rw [← not_lt, lt_longestRun_iff]
  rfl

theorem longestRun_eq_zero_iff : longestRun quote 0 s = 0 ↔ quote ∉ s := by
  rw [← Nat.le_zero, longestRun_le_iff, List.replicate_one, List.singleton_infix_iff]

end Runs

theorem multilineLiteralTail?_quotes {k : ℕ} (hk : k ≤ 2) (hrest : rest.head? ≠ some '\'') :
    multilineLiteralTail? (List.replicate (k + 3) '\'' ++ rest) = some (List.replicate k '\'', rest) := by
  have hclosing := closing?_replicate hk hrest
  rw [List.replicate_succ, List.cons_append] at hclosing ⊢
  simp only [multilineLiteralTail?, hclosing]

theorem multilineLiteralTail?_append (hplain : ∀ c ∈ s, isControl c = false) (hruns : longestRun '\'' 0 s ≤ 2)
    (hrest : rest.head? ≠ some '\'') :
    multilineLiteralTail? (s ++ (List.replicate 3 '\'' ++ rest)) = some (s, rest) := by
  induction s with
  | nil => exact multilineLiteralTail?_quotes (Nat.zero_le 2) hrest
  | cons c s ih =>
    have hfew := length_takeWhile_add_le_longestRun '\'' 0 (c :: s)
    by_cases hall : ((c :: s).takeWhile (· == '\'')).length = (c :: s).length
    · have hself := (List.takeWhile_prefix (l := c :: s) (· == '\'')).eq_of_length hall
      have hs : c :: s = List.replicate (c :: s).length '\'' :=
        List.eq_replicate_length.2 fun d hd => beq_iff_eq.1 (List.takeWhile_eq_self_iff.1 hself d hd)
      rw [hself] at hfew
      rw [hs, ← List.append_assoc, List.replicate_append_replicate]
      exact multilineLiteralTail?_quotes (by omega) hrest
    · have hclosing : closing? '\'' (c :: (s ++ (List.replicate 3 '\'' ++ rest))) = none := by
        apply closing?_eq_none
        rw [← List.cons_append, List.takeWhile_append, if_neg hall]
        omega
      have hcontrol := hplain c List.mem_cons_self
      have hreturn : c ≠ '\r' := by
        rintro rfl
        cases hcontrol
      have hread := ih (fun d hd => hplain d (List.mem_cons_of_mem c hd)) ((longestRun_tail_le '\'' c s).trans hruns)
      have hchar : (decide (c = '\n') || isPrintable c) = true := by
        by_cases hline : c = '\n'
        · simp [hline]
        · simp [isPrintable_of_not_isControl hcontrol hline]
      simp only [List.cons_append, multilineLiteralTail?, hclosing, if_neg hreturn, hchar, if_true, hread]
      rfl

end SeveralLines

section Quoted

variable {s cs rest : List Char}

theorem quoted?_basic (h : ∀ tail, cs ≠ '"' :: '"' :: tail) :
    quoted? ('"' :: cs) = quoted?.named (basicTail? .none cs) := by
  unfold quoted?
  split
  · rename_i tail heq
    cases heq
    exact absurd rfl (h _)
  · rename_i heq
    cases heq
    rfl
  · rename_i heq
    cases heq
  · rename_i heq
    cases heq
  · rename_i _ hbasic _ _
    exact absurd rfl (hbasic cs)

theorem quoted?_literal (h : ∀ tail, cs ≠ '\'' :: '\'' :: tail) :
    quoted? ('\'' :: cs) = quoted?.named (literalTail? cs) := by
  unfold quoted?
  split
  · rename_i heq
    cases heq
  · rename_i heq
    cases heq
  · rename_i tail heq
    cases heq
    exact absurd rfl (h _)
  · rename_i heq
    cases heq
    rfl
  · rename_i _ _ _ hliteral
    exact absurd rfl (hliteral cs)

theorem quoted?_multilineBasic :
    quoted? (List.replicate 3 '"' ++ cs) = quoted?.named (multilineBasicTail? .none (dropLineEnd cs)) :=
  rfl

theorem quoted?_multilineLiteral :
    quoted? (List.replicate 3 '\'' ++ cs) = quoted?.named (multilineLiteralTail? (dropLineEnd cs)) :=
  rfl

/-- A line end behind the opening quotes does not count. It is written if the text could begin with one. -/
theorem openMultiline_eq (quote : Char) (hcs : '\n' ∉ s → cs.head? ≠ some '\n' ∧ cs.head? ≠ some '\r') :
    ∃ opened, openMultiline quote s = List.replicate 3 quote ++ opened ∧ dropLineEnd (opened ++ cs) = cs := by
  refine ⟨_, rfl, ?_⟩
  by_cases hline : '\n' ∈ s
  · have hany : s.any (· == '\n') = true := by simpa using hline
    rw [if_pos hany]
    rfl
  · have hany : s.any (· == '\n') = false := by
      rw [List.any_eq_false]
      intro c hc hfeed
      exact hline (beq_iff_eq.1 hfeed ▸ hc)
    obtain ⟨hfeed, hreturn⟩ := hcs hline
    rw [hany, if_neg Bool.false_ne_true, List.nil_append]
    unfold dropLineEnd
    split
    · exact absurd rfl hfeed
    · exact absurd rfl hreturn
    · rfl

theorem head?_escapeBasic_append {c : Char} : (escapeBasic (c :: s) ++ cs).head? ≠ some '"' := by
  rw [escapeBasic]
  by_cases hquote : c = '"'
  · simp [hquote]
  by_cases hline : c = '\n'
  · simp [hline]
  rcases escapeChar_cases c hline with ⟨hplain, -, -⟩ | ⟨_, hescape, -⟩
  · simp [hquote, hline, hplain]
  · simp [hquote, hline, hescape]

theorem quoted?_writeBasic (s rest : List Char) :
    quoted? ('"' :: escapeBasic s ++ ['"'] ++ '\n' :: rest) = some (String.ofList s, '\n' :: rest) := by
  have hnot : ∀ tail, escapeBasic s ++ '"' :: '\n' :: rest ≠ '"' :: '"' :: tail := by
    intro tail heq
    cases s with
    | nil => cases heq
    | cons c s => exact head?_escapeBasic_append (congrArg List.head? heq)
  rw [List.cons_append, List.cons_append, List.append_assoc, List.singleton_append, quoted?_basic hnot,
    basicTail?_escapeBasic]
  rfl

theorem quoted?_writeLiteral (hne : s ≠ []) (hplain : ∀ c ∈ s, isPrintable c = true ∧ c ≠ '\'') :
    quoted? ('\'' :: s ++ ['\''] ++ '\n' :: rest) = some (String.ofList s, '\n' :: rest) := by
  have hnot : ∀ tail, s ++ '\'' :: '\n' :: rest ≠ '\'' :: '\'' :: tail := by
    intro tail heq
    obtain ⟨c, s, rfl⟩ := List.exists_cons_of_ne_nil hne
    have hc : c = '\'' := (List.cons.inj heq).1
    exact (hplain c List.mem_cons_self).2 hc
  rw [List.cons_append, List.cons_append, List.append_assoc, List.singleton_append, quoted?_literal hnot,
    literalTail?_append hplain]
  rfl

theorem head?_escapeMultiline_append {c : Char} (hline : c ≠ '\n') :
    (escapeMultiline 0 (c :: s) ++ cs).head? ≠ some '\n' ∧ (escapeMultiline 0 (c :: s) ++ cs).head? ≠ some '\r' := by
  rw [escapeMultiline]
  by_cases hquote : c = '"'
  · simp [hquote]
  rcases escapeChar_cases c hline with ⟨hplain, hprintable, -⟩ | ⟨_, hescape, -⟩
  · simp [hquote, hline, hplain, ne_return_of_isPrintable hprintable]
  · simp [hquote, hline, hescape]

theorem quoted?_writeMultilineBasic (s rest : List Char) :
    quoted? (openMultiline '"' s ++ escapeMultiline 0 s ++ ['"', '"', '"'] ++ '\n' :: rest) =
      some (String.ofList s, '\n' :: rest) := by
  have hhead : '\n' ∉ s → (escapeMultiline 0 s ++ (List.replicate 3 '"' ++ '\n' :: rest)).head? ≠ some '\n' ∧
      (escapeMultiline 0 s ++ (List.replicate 3 '"' ++ '\n' :: rest)).head? ≠ some '\r' := by
    intro hline
    cases s with
    | nil => exact ⟨nofun, nofun⟩
    | cons c s => exact head?_escapeMultiline_append fun h => hline (h ▸ List.mem_cons_self)
  obtain ⟨opened, hopen, hdrop⟩ := openMultiline_eq '"' hhead
  have hclose : ['"', '"', '"'] = List.replicate 3 '"' := rfl
  rw [hopen, hclose, List.append_assoc, List.append_assoc, List.append_assoc, quoted?_multilineBasic, hdrop,
    multilineBasicTail?_escapeMultiline (Nat.zero_le 2) (by simp)]
  rfl

theorem quoted?_writeMultilineLiteral (hplain : ∀ c ∈ s, isControl c = false) (hruns : longestRun '\'' 0 s ≤ 2) :
    quoted? (openMultiline '\'' s ++ s ++ ['\'', '\'', '\''] ++ '\n' :: rest) =
      some (String.ofList s, '\n' :: rest) := by
  have hhead : '\n' ∉ s → (s ++ (List.replicate 3 '\'' ++ '\n' :: rest)).head? ≠ some '\n' ∧
      (s ++ (List.replicate 3 '\'' ++ '\n' :: rest)).head? ≠ some '\r' := by
    intro hline
    cases s with
    | nil => exact ⟨nofun, nofun⟩
    | cons c s =>
      refine ⟨fun h => hline ?_, fun h => ?_⟩
      · rw [Option.some.inj h]
        exact List.mem_cons_self
      · have hcontrol := hplain c List.mem_cons_self
        rw [Option.some.inj h] at hcontrol
        cases hcontrol
  obtain ⟨opened, hopen, hdrop⟩ := openMultiline_eq '\'' hhead
  have hclose : ['\'', '\'', '\''] = List.replicate 3 '\'' := rfl
  rw [hopen, hclose, List.append_assoc, List.append_assoc, List.append_assoc, quoted?_multilineLiteral, hdrop,
    multilineLiteralTail?_append hplain hruns (by simp)]
  rfl

/-- Every text is read back from its quotes, at the end of a line. -/
theorem quoted?_writeText (s rest : List Char) :
    quoted? (writeText s ++ '\n' :: rest) = some (String.ofList s, '\n' :: rest) := by
  unfold writeText
  simp only
  split
  · exact quoted?_writeBasic s rest
  · rename_i hbasic
    split
    · rename_i hliteral
      apply quoted?_writeLiteral
      · rintro rfl
        exact hbasic rfl
      · simp only [Bool.and_eq_true, Bool.not_eq_true', List.any_eq_false, beq_iff_eq, longestRun_eq_zero_iff] at hliteral
        obtain ⟨⟨hcontrol, hquote⟩, hline⟩ := hliteral
        exact fun c hc => ⟨isPrintable_of_not_isControl (Bool.eq_false_iff.2 (hcontrol c hc)) (hline c hc),
          fun h => hquote (h ▸ hc)⟩
    split
    · exact quoted?_writeMultilineBasic s rest
    split
    · rename_i hliteral
      simp only [Bool.and_eq_true, Bool.not_eq_true', List.any_eq_false, decide_eq_true_eq] at hliteral
      exact quoted?_writeMultilineLiteral (fun c hc => Bool.eq_false_iff.2 (hliteral.1 c hc)) hliteral.2
    split
    · exact quoted?_writeMultilineBasic s rest
    · exact quoted?_writeBasic s rest

end Quoted

end Quorate.Toml
