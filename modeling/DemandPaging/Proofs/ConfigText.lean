import DemandPaging.Proofs.ConfigLines
import Mathlib.Data.List.Basic

/-!
# The last setting of a key counts

A text is a configuration if each of its lines is one that a configuration may have. It describes
the defaults, overridden by the last setting of each key, so neither the lines that say nothing nor
the order of settings of different keys matters. The first line that a configuration may not have
decides the error, with the line's number in the text: `parse_last_wins`.
-/

namespace DemandPaging.Config

variable {lines lines' before after : List (List Char)} {line : List Char} {k : Key}
  {setting : Setting} {c c' : Config} {fault : Nat → ConfigError} {number : Nat}

/-- The lines of a text: its parts between line feeds. -/
def linesOf (text : String) : List (List Char) := text.toList.splitOn '\n'

/-- A line that sets a key. -/
def Sets (k : Key) (line : List Char) : Prop := ∃ setting, Assigns line setting ∧ setting.key = k

/-- The last line that sets a key makes a setting. -/
inductive LastAssigns (lines : List (List Char)) (k : Key) (setting : Setting) : Prop where
  | intro (before : List (List Char)) (line : List Char) (after : List (List Char))
      (lines_eq : lines = before ++ line :: after) (assigns : Assigns line setting)
      (key_eq : setting.key = k) (last : ∀ l ∈ after, ¬ Sets k l)

/-- What a configuration has for a key; without a path there is nothing to be set. -/
def view (c : Config) : Key → Option Setting
  | .frames => some (.frames c.frames)
  | .cacheSize => some (.cacheSize c.cacheSize)
  | .pageSize => some (.pageSize c.pageSize)
  | .swapSlots => some (.swapSlots c.swapSlots)
  | .swapPath => c.swapPath.map .swapPath
  | .stackPages => some (.stackPages c.stackPages)
  | .replacement => some (.replacement c.replacement)
  | .seed => some (.seed c.seed)

/-- The defaults, overridden by the last setting of each key. -/
structure Overridden (lines : List (List Char)) (c : Config) : Prop where
  last : ∀ k setting, LastAssigns lines k setting → c.view k = some setting
  unset : ∀ k, (∀ line ∈ lines, ¬ Sets k line) → c.view k = ({} : Config).view k

/-- Two configurations with the same settings are the same. -/
theorem eq_of_view (h : ∀ k, c.view k = c'.view k) : c = c' := by
  obtain ⟨frames, cacheSize, pageSize, swapSlots, swapPath, stackPages, replacement, seed⟩ := c
  obtain ⟨frames', cacheSize', pageSize', swapSlots', swapPath', stackPages', replacement',
    seed'⟩ := c'
  have hpath : swapPath = swapPath' :=
    Option.map_injective (fun _ _ => Setting.swapPath.inj) (h .swapPath)
  obtain rfl := Setting.frames.inj (Option.some.inj (h .frames))
  obtain rfl := Setting.cacheSize.inj (Option.some.inj (h .cacheSize))
  obtain rfl := Setting.pageSize.inj (Option.some.inj (h .pageSize))
  obtain rfl := Setting.swapSlots.inj (Option.some.inj (h .swapSlots))
  obtain rfl := Setting.stackPages.inj (Option.some.inj (h .stackPages))
  obtain rfl := Setting.replacement.inj (Option.some.inj (h .replacement))
  obtain rfl := Setting.seed.inj (Option.some.inj (h .seed))
  rw [hpath]

theorem view_assign (c : Config) (setting : Setting) (k : Key) :
    (c.assign setting).view k = if setting.key = k then some setting else c.view k := by
  cases setting <;> cases k <;> rfl

/-- A setting that is made last stays, and one for another key changes nothing. -/
theorem view_foldl_assign (settings : List Setting) (c : Config) (k : Key) :
    (settings.foldl assign c).view k =
      ((settings.filter (·.key = k)).getLast?).or (c.view k) := by
  induction settings using List.reverseRecOn with
  | nil => rfl
  | append_singleton settings setting ih =>
      rw [List.foldl_append, List.foldl_cons, List.foldl_nil, view_assign, List.filter_append]
      by_cases hk : setting.key = k
      · rw [if_pos hk, List.filter_cons_of_pos (by simpa using hk), List.filter_nil,
          List.getLast?_concat, Option.some_or]
      · rw [if_neg hk, List.filter_cons_of_neg (by simpa using hk), List.filter_nil,
          List.append_nil, ih]

/-- The setting that a line makes, if it makes one. -/
def settingOf (line : List Char) : Option Setting := (readContent 0 (lineContent line)).toOption

theorem settingOf_eq_some_iff : settingOf line = some setting ↔ Assigns line setting := by
  have hread : readContent 0 (lineContent line) = .ok setting ↔ Assigns line setting :=
    readContent_eq_ok_iff
  rw [← hread, settingOf]
  cases readContent 0 (lineContent line) with
  | error e => exact ⟨nofun, nofun⟩
  | ok s => exact ⟨fun h => congrArg _ (Option.some.inj h), fun h => congrArg _ (Except.ok.inj h)⟩

instance : DecidablePred (Sets k) := fun line =>
  decidable_of_iff (∃ setting ∈ settingOf line, setting.key = k)
    (exists_congr fun _ => and_congr_left' settingOf_eq_some_iff)

instance : DecidablePred Skipped := fun _ => decidable_of_iff _ skipped_iff.symm

instance : DecidablePred Proper := fun line =>
  decidable_of_iff (Skipped line ∨ ∃ setting ∈ settingOf line, True) <|
    or_congr_right <| exists_congr fun _ => by rw [and_true]; exact settingOf_eq_some_iff

theorem Sets.not_skipped (h : Sets k line) : ¬ Skipped line := by
  obtain ⟨setting, hassigns, -⟩ := h
  exact hassigns.not_skipped

/-! ## Reading the lines -/

variable {rest : List (List Char)}

theorem readLines_of_skipped (h : Skipped line) (number : Nat) :
    readLines number (line :: rest) = readLines (number + 1) rest := by
  rw [readLines, skipped_iff.1 h, List.isEmpty_nil, if_pos rfl]

/-- A line that says something is read. -/
theorem readLines_of_not_skipped (h : ¬ Skipped line) (number : Nat) :
    readLines number (line :: rest) = (readContent number (lineContent line)).bind fun setting =>
      (readLines (number + 1) rest).map (setting :: ·) := by
  rw [skipped_iff, ← List.isEmpty_iff] at h
  rw [readLines, if_neg h]
  cases readContent number (lineContent line) with
  | error e => rfl
  | ok setting => cases readLines (number + 1) rest <;> rfl

/-- Lines that a configuration may have are all read. -/
theorem readLines_eq_ok (h : ∀ line ∈ lines, Proper line) (number : Nat) :
    readLines number lines = .ok (lines.filterMap settingOf) := by
  induction lines generalizing number with
  | nil => rfl
  | cons line rest ih =>
      have hrest := ih (fun l hl => h l (List.mem_cons_of_mem _ hl)) (number + 1)
      rcases h line List.mem_cons_self with hskipped | ⟨setting, hassigns⟩
      · have hnone : settingOf line = none := Option.eq_none_iff_forall_ne_some.2 fun s hs =>
          (settingOf_eq_some_iff.1 hs).not_skipped hskipped
        rw [readLines_of_skipped hskipped, hrest, List.filterMap_cons_none hnone]
      · rw [readLines_of_not_skipped hassigns.not_skipped, hassigns.readContent_eq, hrest,
          List.filterMap_cons_some (settingOf_eq_some_iff.2 hassigns)]
        rfl

/-- The first line that a configuration may not have decides the error. -/
theorem readLines_eq_error (hbefore : ∀ l ∈ before, Proper l) (h : Faulty line fault)
    (number : Nat) :
    readLines number (before ++ line :: after) = .error (fault (number + before.length)) := by
  induction before generalizing number with
  | nil =>
      rw [List.nil_append, readLines_of_not_skipped h.not_skipped, h.readContent_eq]
      rfl
  | cons l before ih =>
      have hrest := ih (fun l hl => hbefore l (List.mem_cons_of_mem _ hl)) (number + 1)
      rw [List.length_cons, Nat.add_comm before.length 1, ← Nat.add_assoc, List.cons_append]
      rcases hbefore l List.mem_cons_self with hskipped | ⟨setting, hassigns⟩
      · rw [readLines_of_skipped hskipped, hrest]
      · rw [readLines_of_not_skipped hassigns.not_skipped, hassigns.readContent_eq, hrest]
        rfl

/-- A carriage return at the end of a line belongs to its comment or to the white space. -/
theorem lineContent_concat_return (line : List Char) :
    lineContent (line ++ ['\r']) = lineContent line := by
  apply HasContent.lineContent_eq
  have hcontent := hasContent_lineContent line
  generalize lineContent line = content at hcontent ⊢
  obtain ⟨before, after, comment, rfl, hmem, hcomment, hblank, htrimmed⟩ := hcontent
  cases comment with
  | nil =>
      refine ⟨before, after ++ ['\r'], [], ?_, ?_, hcomment, fun c hc => ?_, htrimmed⟩
      · rw [List.append_nil, List.append_nil, List.append_assoc _ after]
      · rw [← List.append_assoc, List.mem_append, not_or]
        exact ⟨hmem, by decide⟩
      · rw [← List.append_assoc, List.mem_append, List.mem_singleton] at hc
        rcases hc with hc | rfl
        · exact hblank c hc
        · decide
  | cons c comment =>
      refine ⟨before, after, c :: comment ++ ['\r'], ?_, hmem, hcomment, hblank, htrimmed⟩
      rw [List.append_assoc _ (c :: comment)]

theorem lineContent_endedLine (reversed : List Char) :
    lineContent (Text.endedLine reversed) = lineContent reversed.reverse := by
  unfold Text.endedLine
  split
  · rw [List.reverse_cons, lineContent_concat_return]
  · rfl

/-- Only what stands between line feeds matters: not the carriage returns before them, nor whether
the last line is ended. -/
theorem readLines_linesAfter (reversed cs : List Char) (number : Nat) :
    readLines number (Text.linesAfter reversed cs) =
      readLines number ((cs.splitOn '\n').modifyHead (reversed.reverse ++ ·)) := by
  induction cs generalizing reversed number with
  | nil =>
      rw [Text.linesAfter, List.splitOn_nil, List.modifyHead_cons, List.append_nil]
      split
      · rename_i hempty
        rw [List.isEmpty_iff.1 hempty]
        rfl
      · rfl
  | cons c cs ih =>
      rw [Text.linesAfter, List.splitOn_cons_eq_if_modifyHead]
      by_cases hc : c = '\n'
      · have hrest := ih [] (number + 1)
        rw [List.reverse_nil] at hrest
        have hid : (cs.splitOn '\n').modifyHead ([] ++ ·) = cs.splitOn '\n' := by
          cases cs.splitOn '\n' <;> rfl
        rw [hid] at hrest
        rw [if_pos hc, if_pos (beq_iff_eq.2 hc), List.modifyHead_cons, List.append_nil, readLines,
          readLines, lineContent_endedLine, hrest]
      · rw [if_neg hc, if_neg (by rwa [beq_iff_eq]), ih, List.modifyHead_modifyHead,
          List.reverse_cons]
        congr 2
        funext rest
        exact List.append_assoc _ _ _

theorem readLines_lines (text : String) :
    readLines number (Text.lines text.toList) = readLines number (linesOf text) := by
  rw [Text.lines, readLines_linesAfter, linesOf]
  congr 1
  cases text.toList.splitOn '\n' <;> rfl

/-! ## The settings of a text -/

/-- The settings for a key come from the lines that set it. -/
theorem filter_settings (lines : List (List Char)) (k : Key) :
    (lines.filterMap settingOf).filter (·.key = k) =
      (lines.filter (Sets k)).filterMap settingOf := by
  rw [List.filter_filterMap, List.filterMap_filter]
  refine List.filterMap_congr fun line _ => ?_
  cases hline : settingOf line with
  | none => rw [ite_self]; rfl
  | some setting =>
      have hassigns := settingOf_eq_some_iff.1 hline
      by_cases hk : setting.key = k
      · rw [if_pos (decide_eq_true ⟨setting, hassigns, hk⟩), Option.filter_some,
          if_pos (decide_eq_true hk)]
      · rw [Option.filter_some, if_neg (by simpa using hk), if_neg]
        rintro hsets
        obtain ⟨setting', hassigns', hk'⟩ := of_decide_eq_true hsets
        rw [settingOf_eq_some_iff.2 hassigns'] at hline
        exact hk (Option.some.inj hline ▸ hk')

/-- The configuration that lines describe: their settings on top of the defaults. -/
def described (lines : List (List Char)) : Config := (lines.filterMap settingOf).foldl assign {}

theorem view_described (lines : List (List Char)) (k : Key) : (described lines).view k =
    (((lines.filter (Sets k)).filterMap settingOf).getLast?).or (({} : Config).view k) := by
  rw [described, view_foldl_assign, filter_settings]

/-- Settings that are made one after the other leave the last one of each key. -/
theorem overridden_described (lines : List (List Char)) : Overridden lines (described lines) := by
  have hnone : ∀ {ls : List (List Char)} {k : Key}, (∀ l ∈ ls, ¬ Sets k l) →
      ls.filter (Sets k) = [] := by
    intro ls k h
    rw [List.filter_eq_nil_iff]
    simpa using h
  constructor
  · rintro k setting ⟨before, line, after, rfl, hassigns, hkey, hlast⟩
    rw [view_described, List.filter_append, List.filter_cons, hnone hlast,
      if_pos (decide_eq_true ⟨setting, hassigns, hkey⟩), List.filterMap_append,
      List.filterMap_cons_some (settingOf_eq_some_iff.2 hassigns), List.filterMap_nil,
      List.getLast?_concat, Option.some_or]
  · intro k h
    rw [view_described, hnone h]
    rfl

/-- Only the order of the lines that set the same key matters. -/
theorem described_congr (h : ∀ k, lines'.filter (Sets k) = lines.filter (Sets k)) :
    described lines' = described lines :=
  eq_of_view fun k => by rw [view_described, view_described, h]

/-- What a text of proper lines is parsed to. -/
theorem parse_eq {text : String} (h : ∀ line ∈ linesOf text, Proper line) :
    parse text = (described (linesOf text)).validate.map fun () => described (linesOf text) := by
  rw [parse, readLines_lines, readLines_eq_ok h]
  show ((described (linesOf text)).validate).bind _ = _
  cases (described (linesOf text)).validate <;> rfl

/-- Lines are all proper, or there is a first one that is wrong. -/
theorem proper_or_first_faulty (lines : List (List Char)) : (∀ line ∈ lines, Proper line) ∨
    ∃ before line after fault, lines = before ++ line :: after ∧ (∀ l ∈ before, Proper l) ∧
      Faulty line fault := by
  induction lines with
  | nil => exact .inl nofun
  | cons line rest ih =>
      rcases proper_or_faulty line with hproper | ⟨fault, hfaulty⟩
      · rcases ih with hrest | ⟨before, l, after, fault, rfl, hbefore, hfaulty⟩
        · exact .inl (List.forall_mem_cons.2 ⟨hproper, hrest⟩)
        · exact .inr ⟨line :: before, l, after, fault, rfl,
            List.forall_mem_cons.2 ⟨hproper, hbefore⟩, hfaulty⟩
      · exact .inr ⟨[], line, rest, fault, rfl, nofun, hfaulty⟩

/-- The error for a text with a line that is wrong. -/
theorem parse_eq_error {text : String} (h : linesOf text = before ++ line :: after)
    (hbefore : ∀ l ∈ before, Proper l) (hfaulty : Faulty line fault) :
    parse text = .error (fault (before.length + 1)) := by
  rw [parse, readLines_lines, h, readLines_eq_error hbefore hfaulty, Nat.add_comm]
  rfl

/-- A text that is a configuration has proper lines only. -/
theorem proper_of_parse {text : String} (h : parse text = .ok c) :
    ∀ line ∈ linesOf text, Proper line := by
  refine (proper_or_first_faulty (linesOf text)).resolve_right ?_
  rintro ⟨before, line, after, fault, hlines, hbefore, hfaulty⟩
  rw [parse_eq_error hlines hbefore hfaulty] at h
  cases h

/-- Lines that are proper, and set the same keys in the same order, are the same configuration. -/
theorem parse_congr {text text' : String} (h : parse text = .ok c)
    (hproper : ∀ line ∈ linesOf text', Proper line)
    (hsets : ∀ k, (linesOf text').filter (Sets k) = (linesOf text).filter (Sets k)) :
    parse text' = .ok c := by
  rw [parse_eq hproper, described_congr hsets, ← parse_eq (proper_of_parse h), h]

/-- The lines that say something. -/
def telling (lines : List (List Char)) : List (List Char) := lines.filter fun line => ¬ Skipped line

/-- The same lines in another order, in which two settings of one key never change places. -/
structure Rearranged (lines lines' : List (List Char)) : Prop where
  perm : lines'.Perm lines
  same_order : ∀ k, lines'.filter (Sets k) = lines.filter (Sets k)

theorem filter_telling (lines : List (List Char)) (k : Key) :
    (telling lines).filter (Sets k) = lines.filter (Sets k) := by
  rw [telling, List.filter_filter]
  refine List.filter_congr fun line _ => ?_
  by_cases h : Sets k line
  · simp [h, h.not_skipped]
  · simp [h]

/-- A text whose lines all say nothing or make a setting is parsed to the defaults, overridden by
the last setting of each key, if this describes a machine that can be built. Every other text is
refused, for what is wrong with the first other line, with its number. So a configuration remains
the same when lines that say nothing are put in or left out, and when settings of different keys
change places. -/
theorem parse_last_wins (text : String) :
    ((∀ line ∈ linesOf text, Proper line) →
      ∃ c, Overridden (linesOf text) c ∧ parse text = c.validate.map fun () => c) ∧
    (∀ before line after fault, linesOf text = before ++ line :: after →
      (∀ l ∈ before, Proper l) → Faulty line fault →
        parse text = .error (fault (before.length + 1))) ∧
    (∀ line, Proper line ↔ ¬ ∃ fault, Faulty line fault) ∧
    (∀ c text', parse text = .ok c → telling (linesOf text') = telling (linesOf text) →
      parse text' = .ok c) ∧
    ∀ c text', parse text = .ok c → Rearranged (linesOf text) (linesOf text') →
      parse text' = .ok c := by
  -- both changes of the text leave the lines for each key, and their order, as they are
  refine ⟨fun h => ⟨_, overridden_described _, parse_eq h⟩,
    fun _ _ _ _ => parse_eq_error, fun _ => proper_iff, fun c text' h htelling => ?_,
    fun c text' h hlines => ?_⟩
  · refine parse_congr h (fun line hline => ?_) fun k => ?_
    · -- what is not among the lines of the text says nothing
      by_cases hskipped : Skipped line
      · exact .inl hskipped
      · have hmem : line ∈ telling (linesOf text) := by
          rw [← htelling]
          exact List.mem_filter.2 ⟨hline, decide_eq_true hskipped⟩
        exact proper_of_parse h line (List.mem_filter.1 hmem).1
    · rw [← filter_telling, htelling, filter_telling]
  · exact parse_congr h (fun line hline => proper_of_parse h line (hlines.perm.subset hline))
      hlines.same_order

/-- A configuration that sets a key twice, with a comment, a carriage return, and an equals sign in
a value. -/
def smallText : String := "vm.seed = 4#old\nswap.path= a=b \r\nvm.seed\t=2"

/-- A text whose second line that says something has no equals sign. -/
def brokenText : String := "vm.seed = +7\n#\nvm.seed 8\nseed = 9"

/-- The last line for a key counts, lines that say nothing may be put in, and lines for different
keys may change places. -/
theorem parse_smallText : ∃ c, Overridden (linesOf smallText) c ∧ parse smallText = .ok c ∧
    c.seed = 2#64 ∧ c.swapPath = some "a=b" ∧
    parse "\nvm.seed = 4#old\n \t\nswap.path= a=b \r\nvm.seed\t=2\n#" = .ok c ∧
    parse "vm.seed = 4#old\nvm.seed\t=2\nswap.path= a=b \r" = .ok c ∧
    parse brokenText = .error (.malformedLine 3) := by
  obtain ⟨hproper, -, -, htelling, hrearranged⟩ := parse_last_wins smallText
  obtain ⟨c, hoverridden, hparse⟩ := hproper (by decide +kernel)
  have hsmall : parse smallText = .ok { seed := 2#64, swapPath := some "a=b" } := by
    decide +kernel
  have hc : parse smallText = .ok c ∧ c = { seed := 2#64, swapPath := some "a=b" } := by
    rw [hsmall] at hparse ⊢
    cases hvalid : c.validate with
    | error e => rw [hvalid] at hparse; cases hparse
    | ok u =>
        rw [hvalid] at hparse
        obtain rfl := Except.ok.inj hparse
        exact ⟨rfl, rfl⟩
  -- what is wrong with the third line is what the parser finds there
  obtain ⟨fault, hfaulty⟩ := (proper_or_faulty "vm.seed 8".toList).resolve_left (by decide +kernel)
  have hfault : fault 3 = .malformedLine 3 :=
    Except.error.inj ((hfaulty.readContent_eq 3).symm.trans (by decide +kernel))
  refine ⟨c, hoverridden, hc.1, by rw [hc.2], by rw [hc.2], htelling c _ hc.1 (by decide +kernel),
    hrearranged c _ hc.1 ⟨by decide +kernel, ?_⟩, ?_⟩
  · intro k
    cases k <;> decide +kernel
  · rw [← hfault]
    exact (parse_last_wins brokenText).2.1 ["vm.seed = +7".toList, "#".toList] _
      ["seed = 9".toList] fault (by decide +kernel) (by decide +kernel) hfaulty

end DemandPaging.Config
