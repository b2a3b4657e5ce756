import DemandPaging.Config.Parser
import Mathlib.Data.List.DropRight
import Mathlib.Data.Nat.Digits.Defs

/-!
# What a line of a configuration says

The grammar of configuration lines: what stands before the comment, the form `key = value`, and the
values of each key. A line has nothing before its comment, makes a setting, or is wrong in one of
three ways. The parser takes every line apart in just this way: `Assigns.readContent_eq` and
`Faulty.readContent_eq`.
-/

namespace DemandPaging.Text

variable {p : Char → Bool} {cs run rest before after content : List Char}

/-- A text that begins with characters of a kind and goes on with another one is cut there. -/
theorem span_eq (hcs : cs = run ++ rest) (hrun : ∀ c ∈ run, p c = true)
    (hrest : ∀ c ∈ rest.head?, p c = false) : cs.takeWhile p = run ∧ cs.dropWhile p = rest := by
  rw [hcs, List.takeWhile_append_of_pos hrun, List.dropWhile_append_of_pos hrun]
  cases rest with
  | nil => exact ⟨List.append_nil _, rfl⟩
  | cons c rest =>
      have hc : p c = false := hrest c rfl
      rw [List.takeWhile_cons, List.dropWhile_cons, hc]
      exact ⟨List.append_nil _, rfl⟩

theorem head?_dropWhile (p : Char → Bool) (cs : List Char) :
    ∀ c ∈ (cs.dropWhile p).head?, p c = false := by
  intro c hc
  have h := List.head?_dropWhile_not p cs
  rw [Option.mem_def.1 hc] at h
  exact h

/-- No white space stands at either end. -/
structure Trimmed (cs : List Char) : Prop where
  first : ∀ c ∈ cs.head?, isBlank c = false
  last : ∀ c ∈ cs.getLast?, isBlank c = false

/-- White space at the end is all that is taken off there. -/
theorem trimEnd_eq (hcs : cs = content ++ after) (hblank : ∀ c ∈ after, isBlank c = true)
    (hlast : ∀ c ∈ content.getLast?, isBlank c = false) : trimEnd cs = content := by
  have hreverse : cs.reverse = after.reverse ++ content.reverse := by
    rw [hcs, List.reverse_append]
  have hspan := (span_eq hreverse (fun c hc => hblank c (List.mem_reverse.1 hc))
    (by rwa [List.head?_reverse])).2
  rw [trimEnd, hspan, List.reverse_reverse]

/-- White space at both ends is all that is taken off. -/
theorem trim_eq (hcs : cs = before ++ content ++ after)
    (hblank : ∀ c ∈ before ++ after, isBlank c = true) (h : Trimmed content) :
    trim cs = content := by
  rw [List.append_assoc] at hcs
  have hbefore : ∀ c ∈ before, isBlank c = true := fun c hc => hblank c (List.mem_append_left _ hc)
  have hafter : ∀ c ∈ after, isBlank c = true := fun c hc => hblank c (List.mem_append_right _ hc)
  have hdrop : cs.dropWhile isBlank = (content ++ after).dropWhile isBlank := by
    rw [hcs, List.dropWhile_append_of_pos hbefore]
  rw [trim, hdrop]
  cases content with
  | nil =>
      rw [List.nil_append, List.dropWhile_eq_nil_iff.2 hafter]
      rfl
  | cons c content =>
      have hc : isBlank c = false := h.first c rfl
      rw [List.cons_append, List.dropWhile_cons, hc]
      exact trimEnd_eq rfl hafter h.last

/-- Every text is its trimmed part with white space around it. -/
theorem exists_trim (cs : List Char) : ∃ before after, cs = before ++ trim cs ++ after ∧
    (∀ c ∈ before ++ after, isBlank c = true) ∧ Trimmed (trim cs) := by
  have hcut : trim cs ++ (cs.dropWhile isBlank).rtakeWhile isBlank = cs.dropWhile isBlank :=
    List.rdropWhile_append_rtakeWhile
  refine ⟨cs.takeWhile isBlank, (cs.dropWhile isBlank).rtakeWhile isBlank, ?_, ?_, ?_, ?_⟩
  · rw [List.append_assoc, hcut, List.takeWhile_append_dropWhile]
  · intro c hc
    rcases List.mem_append.1 hc with hc | hc
    · exact List.mem_takeWhile_imp hc
    · exact List.mem_rtakeWhile_imp hc
  · -- the first character that is left was the first one after the blanks
    intro c hc
    apply head?_dropWhile isBlank cs c
    rw [← hcut, List.head?_append, Option.mem_def.1 hc]
    rfl
  · intro c hc
    have hlast : ∀ c ∈ (trim cs).reverse.head?, isBlank c = false := by
      show ∀ c ∈ ((cs.dropWhile isBlank).rdropWhile isBlank).reverse.head?, isBlank c = false
      rw [List.rdropWhile, List.reverse_reverse]
      exact head?_dropWhile isBlank _
    rw [List.head?_reverse] at hlast
    exact hlast c hc

/-- A number as it is written: ASCII digits, perhaps with a plus sign before them, for a number of
64 bits. -/
inductive Numeral (cs : List Char) (n : Nat) : Prop where
  | intro (sign digits : List Char) (text_eq : cs = sign ++ digits)
      (sign_mem : sign = [] ∨ sign = ['+']) (digits_ne : digits ≠ [])
      (isDigit : ∀ d ∈ digits, d.isDigit = true)
      (value_eq : n = Nat.ofDigits 10 (digits.reverse.map fun d => d.toNat - '0'.toNat))
      (value_lt : n < UInt64.size)

theorem digitsValue_append (cs : List Char) (c : Char) :
    digitsValue (cs ++ [c]) = 10 * digitsValue cs + (c.toNat - '0'.toNat) := by
  rw [digitsValue, List.foldl_append]
  rfl

theorem digitsValue_eq_ofDigits (cs : List Char) :
    digitsValue cs = Nat.ofDigits 10 (cs.reverse.map fun d => d.toNat - '0'.toNat) := by
  induction cs using List.reverseRecOn with
  | nil => rfl
  | append_singleton cs c ih =>
      rw [digitsValue_append, ih, List.reverse_append, List.reverse_singleton,
        List.singleton_append, List.map_cons, Nat.ofDigits_cons, Nat.add_comm]

/-- One plus sign before the digits does not count. -/
theorem readNumber_append {sign digits : List Char}
    (hsign : sign = ['+'] ∨ sign = [] ∧ digits.head? ≠ some '+') :
    readNumber (sign ++ digits) =
      if digits.isEmpty || !digits.all Char.isDigit then none
      else if digitsValue digits < UInt64.size then some (digitsValue digits)
      else none := by
  rcases hsign with rfl | ⟨rfl, hplus⟩
  · rfl
  · rw [List.nil_append, readNumber]
    rintro rest rfl
    exact hplus rfl

theorem exists_sign (cs : List Char) : ∃ sign digits, cs = sign ++ digits ∧
    (sign = ['+'] ∨ sign = [] ∧ digits.head? ≠ some '+') := by
  by_cases h : cs.head? = some '+'
  · obtain ⟨rest, rfl⟩ := List.head?_eq_some_iff.1 h
    exact ⟨['+'], rest, rfl, .inl rfl⟩
  · exact ⟨[], cs, rfl, .inr ⟨rfl, h⟩⟩

/-- A number is read from its numerals, and from nothing else. -/
theorem readNumber_eq_some_iff {n : Nat} : readNumber cs = some n ↔ Numeral cs n := by
  have hdigits : ∀ digits : List Char,
      ¬ (digits.isEmpty || !digits.all Char.isDigit) = true ↔
        digits ≠ [] ∧ ∀ d ∈ digits, d.isDigit = true := by
    intro digits
    rw [Bool.or_eq_true, not_or, List.isEmpty_iff, Bool.not_eq_true', Bool.not_eq_false,
      List.all_eq_true]
  constructor
  · intro h
    obtain ⟨sign, digits, rfl, hsign⟩ := exists_sign cs
    rw [readNumber_append hsign] at h
    split at h
    · cases h
    · rename_i hread
      split at h
      · rename_i hlt
        obtain rfl := Option.some.inj h
        obtain ⟨hne, hall⟩ := (hdigits digits).1 hread
        exact ⟨sign, digits, rfl, hsign.symm.imp_left And.left, hne, hall,
          digitsValue_eq_ofDigits digits, hlt⟩
      · cases h
  · rintro ⟨sign, digits, rfl, hsign, hne, hall, rfl, hlt⟩
    rw [← digitsValue_eq_ofDigits] at hlt ⊢
    rw [readNumber_append, if_neg ((hdigits digits).2 ⟨hne, hall⟩), if_pos hlt]
    refine hsign.symm.imp_right fun hnil => ⟨hnil, fun hplus => ?_⟩
    exact absurd (hall '+' (List.mem_of_mem_head? hplus)) (by decide)

end DemandPaging.Text

namespace DemandPaging.Config

open Text

variable {line content key value : List Char} {k : Key} {setting : Setting}

/-- The content of a line: all before the first number sign, without the white space at both
ends. -/
inductive HasContent (line content : List Char) : Prop where
  | intro (before after comment : List Char)
      (line_eq : line = before ++ content ++ after ++ comment)
      (not_mem : '#' ∉ before ++ content ++ after)
      (head_comment : ∀ c ∈ comment.head?, c = '#')
      (blank : ∀ c ∈ before ++ after, isBlank c = true) (trimmed : Trimmed content)

theorem HasContent.lineContent_eq (h : HasContent line content) : lineContent line = content := by
  obtain ⟨before, after, comment, hline, hmem, hcomment, hblank, htrimmed⟩ := h
  have hcut := (span_eq (p := (· != '#')) hline (fun c hc => ?_) (fun c hc => ?_)).1
  · rw [lineContent, hcut]
    exact trim_eq rfl hblank htrimmed
  · rw [bne_iff_ne]
    rintro rfl
    exact hmem hc
  · rw [hcomment c hc]
    rfl

/-- Every line has a content, which `lineContent` finds. -/
theorem hasContent_lineContent (line : List Char) : HasContent line (lineContent line) := by
  obtain ⟨before, after, hcut, hblank, htrimmed⟩ := exists_trim (line.takeWhile (· != '#'))
  have hcut : line.takeWhile (· != '#') = before ++ lineContent line ++ after := hcut
  refine ⟨before, after, line.dropWhile (· != '#'), ?_, ?_, fun c hc => ?_, hblank, htrimmed⟩
  · rw [← hcut, List.takeWhile_append_dropWhile]
  · rw [← hcut]
    intro hmem
    exact absurd (List.mem_takeWhile_imp hmem) (by decide)
  · have hc := head?_dropWhile _ _ c hc
    rwa [bne_eq_false_iff_eq] at hc

theorem hasContent_iff : HasContent line content ↔ lineContent line = content :=
  ⟨HasContent.lineContent_eq, fun h => h ▸ hasContent_lineContent line⟩

/-- A content of the form `key = value`: one equals sign with spaces and tabs around it. -/
inductive Splits (content key value : List Char) : Prop where
  | intro (gap gap' : List Char) (content_eq : content = key ++ (gap ++ '=' :: (gap' ++ value)))
      (key_ne : key ≠ []) (key_chars : ∀ c ∈ key, isKeyChar c = true)
      (gap_chars : ∀ c ∈ gap ++ gap', isGap c = true)
      (head_value : ∀ c ∈ value.head?, isGap c = false)

/-- What ends a key is no part of it. -/
theorem isKeyChar_of_isGap {c : Char} (h : isGap c = true) : isKeyChar c = false := by
  rw [isGap, Bool.or_eq_true, beq_iff_eq, beq_iff_eq] at h
  rcases h with rfl | rfl <;> decide

theorem Splits.splitContent_eq (h : Splits content key value)
    (hlast : ∀ c ∈ content.getLast?, isBlank c = false) :
    splitContent content = some (key, value) := by
  obtain ⟨gap, gap', hcontent, hne, hkey, hgap, hvalue⟩ := h
  have hgap₁ : ∀ c ∈ gap, isGap c = true := fun c hc => hgap c (List.mem_append_left _ hc)
  have hend : ∀ c ∈ (gap ++ '=' :: (gap' ++ value)).head?, isKeyChar c = false := by
    intro c hc
    cases gap with
    | nil =>
        obtain rfl := Option.some.inj hc
        decide
    | cons g gap =>
        obtain rfl := Option.some.inj hc
        exact isKeyChar_of_isGap (hgap₁ _ List.mem_cons_self)
  obtain ⟨htake, hdrop⟩ := span_eq hcontent hkey hend
  have hsign : (gap ++ '=' :: (gap' ++ value)).dropWhile isGap = '=' :: (gap' ++ value) :=
    (span_eq rfl hgap₁ fun c hc => by obtain rfl := Option.some.inj hc; decide).2
  have hrest : (gap' ++ value).dropWhile isGap = value :=
    (span_eq rfl (fun c hc => hgap c (List.mem_append_right _ hc)) hvalue).2
  -- the value ends where the content ends, so there is no white space to be taken off
  have htrim : trimEnd value = value := by
    refine trimEnd_eq (List.append_nil _).symm nofun fun c hc => hlast c ?_
    rw [hcontent]
    simp only [List.getLast?_append, List.getLast?_cons, Option.mem_def.1 hc]
    rfl
  have hempty : key.isEmpty = false := by
    rwa [← Bool.not_eq_true, List.isEmpty_iff]
  simp only [splitContent, htake, hdrop, hsign, hrest, htrim, hempty]
  rfl

theorem splits_of_splitContent (hlast : ∀ c ∈ content.getLast?, isBlank c = false)
    (h : splitContent content = some (key, value)) : Splits content key value := by
  rw [splitContent] at h
  split at h
  · rename_i rest hrest
    split at h
    · cases h
    · rename_i hempty
      obtain ⟨rfl, hvalue⟩ := Prod.mk.inj (Option.some.inj h)
      have hcontent : content = content.takeWhile isKeyChar ++
          ((content.dropWhile isKeyChar).takeWhile isGap ++
            '=' :: (rest.takeWhile isGap ++ rest.dropWhile isGap)) := by
        rw [List.takeWhile_append_dropWhile, ← hrest, List.takeWhile_append_dropWhile,
          List.takeWhile_append_dropWhile]
      have htrim : trimEnd (rest.dropWhile isGap) = rest.dropWhile isGap := by
        refine trimEnd_eq (List.append_nil _).symm nofun fun c hc => hlast c ?_
        rw [hcontent]
        simp only [List.getLast?_append, List.getLast?_cons, Option.mem_def.1 hc]
        rfl
      rw [htrim] at hvalue
      subst hvalue
      refine ⟨_, _, hcontent, ?_, fun c hc => List.mem_takeWhile_imp hc, fun c hc => ?_,
        head?_dropWhile _ _⟩
      · rwa [List.isEmpty_iff] at hempty
      · rcases List.mem_append.1 hc with hc | hc
        · exact List.mem_takeWhile_imp hc
        · exact List.mem_takeWhile_imp hc
  · cases h

/-- The parser takes the content of a line apart as the grammar does. -/
theorem splitContent_eq_some_iff (hlast : ∀ c ∈ content.getLast?, isBlank c = false) :
    splitContent content = some (key, value) ↔ Splits content key value :=
  ⟨splits_of_splitContent hlast, fun h => h.splitContent_eq hlast⟩

/-- The name of a key. -/
def Key.name : Key → String
  | .frames => "machine.frames"
  | .cacheSize => "machine.tlb_size"
  | .pageSize => "machine.page_size"
  | .swapSlots => "swap.slots"
  | .swapPath => "swap.path"
  | .stackPages => "process.stack_pages"
  | .replacement => "vm.replacement"
  | .seed => "vm.seed"

theorem Key.ofName_eq_some_iff {s : String} : Key.ofName s = some k ↔ s = k.name := by
  constructor
  · intro h
    unfold Key.ofName at h
    split at h
    all_goals first
      | (obtain rfl := Option.some.inj h; rfl)
      | cases h
  · rintro rfl
    cases k <;> rfl

/-- The values of each key: numbers, any path but the empty one, and the two policies. -/
inductive Denotes : Key → List Char → Setting → Prop where
  | frames {v : List Char} {n : Nat} (h : Numeral v n) : Denotes .frames v (.frames n)
  | cacheSize {v : List Char} {n : Nat} (h : Numeral v n) : Denotes .cacheSize v (.cacheSize n)
  | pageSize {v : List Char} {n : Nat} (h : Numeral v n) : Denotes .pageSize v (.pageSize n)
  | swapSlots {v : List Char} {n : Nat} (h : Numeral v n) : Denotes .swapSlots v (.swapSlots n)
  | swapPath {v : List Char} (h : v ≠ []) : Denotes .swapPath v (.swapPath (String.ofList v))
  | stackPages {v : List Char} {n : Nat} (h : Numeral v n) : Denotes .stackPages v (.stackPages n)
  | clock : Denotes .replacement "clock".toList (.replacement .clock)
  | random : Denotes .replacement "random".toList (.replacement .random)
  | seed {v : List Char} {n : Nat} (h : Numeral v n) :
      Denotes .seed v (.seed (BitVec.ofNat 64 n))

theorem map_readNumber_eq_some_iff {f : Nat → Setting} :
    (readNumber value).map f = some setting ↔ ∃ n, Numeral value n ∧ f n = setting := by
  simp only [Option.map_eq_some_iff, readNumber_eq_some_iff]

/-- The parser gives a key just the values that it can have. -/
theorem setting_eq_some_iff : k.setting value = some setting ↔ Denotes k value setting := by
  constructor
  · intro h
    cases k with
    | swapPath =>
        rw [Key.setting] at h
        split at h
        · cases h
        · rename_i hempty
          obtain rfl := Option.some.inj h
          rw [List.isEmpty_iff] at hempty
          exact .swapPath hempty
    | replacement =>
        rw [Key.setting, Option.map_eq_some_iff] at h
        obtain ⟨kind, hkind, rfl⟩ := h
        unfold policyOfName at hkind
        split at hkind
        · rename_i hvalue
          obtain rfl := Option.some.inj hkind
          rw [← String.toList_inj, String.toList_ofList] at hvalue
          rw [hvalue]
          exact .clock
        · rename_i hvalue
          obtain rfl := Option.some.inj hkind
          rw [← String.toList_inj, String.toList_ofList] at hvalue
          rw [hvalue]
          exact .random
        · cases hkind
    | _ =>
        obtain ⟨n, hn, rfl⟩ := map_readNumber_eq_some_iff.1 h
        constructor
        exact hn
  · intro h
    cases h with
    | swapPath h =>
        rw [Key.setting, if_neg]
        rwa [List.isEmpty_iff]
    | clock => rfl
    | random => rfl
    | _ h => exact map_readNumber_eq_some_iff.2 ⟨_, h, rfl⟩

/-- A line with nothing before its comment but white space. -/
def Skipped (line : List Char) : Prop := HasContent line []

/-- A line that makes a setting. -/
inductive Assigns (line : List Char) (setting : Setting) : Prop where
  | intro (content value : List Char) (k : Key) (h : HasContent line content)
      (splits : Splits content k.name.toList value) (denotes : Denotes k value setting)

/-- A line that says something, but makes no setting, and the error it is for a given number of the
line. -/
inductive Faulty (line : List Char) : (Nat → ConfigError) → Prop where
  | malformedLine {content : List Char} (h : HasContent line content) (hne : content ≠ [])
      (hsplits : ∀ key value, ¬ Splits content key value) : Faulty line .malformedLine
  | unknownKey {content key value : List Char} (h : HasContent line content)
      (hsplits : Splits content key value) (hkey : ∀ k : Key, key ≠ k.name.toList) :
      Faulty line fun number => .unknownKey number (String.ofList key)
  | invalidValue {content value : List Char} {k : Key} (h : HasContent line content)
      (hsplits : Splits content k.name.toList value)
      (hvalue : ∀ setting, ¬ Denotes k value setting) :
      Faulty line fun number => .invalidValue number k.name (String.ofList value)

/-- A line that a configuration may have: it says nothing, or it makes a setting. -/
def Proper (line : List Char) : Prop := Skipped line ∨ ∃ setting, Assigns line setting

theorem skipped_iff : Skipped line ↔ lineContent line = [] := hasContent_iff

theorem getLast?_lineContent (line : List Char) :
    ∀ c ∈ (lineContent line).getLast?, isBlank c = false := by
  obtain ⟨-, -, -, -, -, -, -, htrimmed⟩ := hasContent_lineContent line
  exact htrimmed.last

/-- The parser finds the form `key = value` where the line has it. -/
theorem splitContent_lineContent_eq_some_iff :
    splitContent (lineContent line) = some (key, value) ↔
      ∃ content, HasContent line content ∧ Splits content key value := by
  rw [splitContent_eq_some_iff (getLast?_lineContent line)]
  constructor
  · exact fun h => ⟨_, hasContent_lineContent line, h⟩
  · rintro ⟨content, hcontent, h⟩
    rwa [hcontent.lineContent_eq]

theorem Key.ofName_name (k : Key) : Key.ofName k.name = some k := Key.ofName_eq_some_iff.2 rfl

theorem Assigns.readContent_eq (h : Assigns line setting) (number : Nat) :
    readContent number (lineContent line) = .ok setting := by
  obtain ⟨content, value, k, hcontent, hsplits, hdenotes⟩ := h
  have hsplit := splitContent_lineContent_eq_some_iff.2 ⟨content, hcontent, hsplits⟩
  simp only [readContent, hsplit, String.ofList_toList, Key.ofName_name,
    setting_eq_some_iff.2 hdenotes]

theorem Faulty.readContent_eq {fault : Nat → ConfigError} (h : Faulty line fault) (number : Nat) :
    readContent number (lineContent line) = .error (fault number) := by
  cases h with
  | malformedLine hcontent hne hsplits =>
      have hsplit : splitContent (lineContent line) = none := by
        refine Option.eq_none_iff_forall_ne_some.2 fun pair hpair => ?_
        obtain ⟨content, hcontent', h⟩ := splitContent_lineContent_eq_some_iff.1 hpair
        obtain rfl := hcontent.lineContent_eq.symm.trans hcontent'.lineContent_eq
        exact hsplits _ _ h
      simp only [readContent, hsplit]
  | @unknownKey content key value hcontent hsplits hkey =>
      have hsplit := splitContent_lineContent_eq_some_iff.2 ⟨_, hcontent, hsplits⟩
      have hname : Key.ofName (String.ofList key) = none := by
        refine Option.eq_none_iff_forall_ne_some.2 fun k hk => hkey k ?_
        rw [← Key.ofName_eq_some_iff.1 hk, String.toList_ofList]
      simp only [readContent, hsplit, hname]
  | @invalidValue content value k hcontent hsplits hvalue =>
      have hsplit := splitContent_lineContent_eq_some_iff.2 ⟨_, hcontent, hsplits⟩
      have hnone : k.setting value = none := Option.eq_none_iff_forall_ne_some.2 fun setting h =>
        hvalue setting (setting_eq_some_iff.1 h)
      simp only [readContent, hsplit, String.ofList_toList, Key.ofName_name, hnone]

theorem Faulty.not_skipped {fault : Nat → ConfigError} (h : Faulty line fault) :
    ¬ Skipped line := by
  have hne : ∀ {content key value}, Splits content key value → content ≠ [] := by
    rintro _ _ _ ⟨gap, gap', rfl, hne, -, -, -⟩ hnil
    exact hne (List.append_eq_nil_iff.1 hnil).1
  rw [skipped_iff]
  cases h with
  | malformedLine hcontent hcontent_ne hsplits => rwa [hcontent.lineContent_eq]
  | unknownKey hcontent hsplits hkey =>
      rw [hcontent.lineContent_eq]
      exact hne hsplits
  | invalidValue hcontent hsplits hvalue =>
      rw [hcontent.lineContent_eq]
      exact hne hsplits

theorem Assigns.not_skipped (h : Assigns line setting) : ¬ Skipped line := by
  rw [skipped_iff]
  intro hnil
  have hread := h.readContent_eq 0
  rw [hnil] at hread
  cases hread

/-- There is no fourth way for a line to be wrong. -/
theorem proper_or_faulty (line : List Char) : Proper line ∨ ∃ fault, Faulty line fault := by
  have hcontent := hasContent_lineContent line
  by_cases hnil : lineContent line = []
  · exact .inl (.inl (skipped_iff.2 hnil))
  by_cases hsplits : ∃ key value, Splits (lineContent line) key value
  · obtain ⟨key, value, hsplits⟩ := hsplits
    by_cases hkey : ∃ k : Key, key = k.name.toList
    · obtain ⟨k, rfl⟩ := hkey
      by_cases hvalue : ∃ setting, Denotes k value setting
      · obtain ⟨setting, hdenotes⟩ := hvalue
        exact .inl (.inr ⟨setting, _, value, k, hcontent, hsplits, hdenotes⟩)
      · exact .inr ⟨_, .invalidValue hcontent hsplits (not_exists.1 hvalue)⟩
    · exact .inr ⟨_, .unknownKey hcontent hsplits (not_exists.1 hkey)⟩
  · exact .inr ⟨_, .malformedLine hcontent hnil fun key value h => hsplits ⟨key, value, h⟩⟩

/-- The parser makes the settings of the grammar. -/
theorem readContent_eq_ok_iff {number : Nat} :
    readContent number (lineContent line) = .ok setting ↔ Assigns line setting := by
  refine ⟨fun h => ?_, fun h => h.readContent_eq number⟩
  rcases proper_or_faulty line with (hskipped | ⟨setting', hassigns⟩) | ⟨fault, hfaulty⟩
  · rw [skipped_iff.1 hskipped] at h
    cases h
  · rw [hassigns.readContent_eq] at h
    rwa [← Except.ok.inj h]
  · rw [hfaulty.readContent_eq] at h
    cases h

/-- A line is either proper or wrong. -/
theorem proper_iff : Proper line ↔ ¬ ∃ fault, Faulty line fault := by
  refine ⟨?_, (proper_or_faulty line).resolve_right⟩
  rintro (hskipped | ⟨setting, hassigns⟩) ⟨fault, hfaulty⟩
  · exact hfaulty.not_skipped hskipped
  · have h := hassigns.readContent_eq 0
    rw [hfaulty.readContent_eq] at h
    cases h

end DemandPaging.Config
