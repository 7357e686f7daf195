import Mathlib.Data.List.TakeWhile
import BoundQuery.Command.Run
import BoundQuery.Proofs.OptionLoading

/-!
# Which option counts

Options come from the settings, from the option file and from the arguments `--set`, in this order.
`Command.find?_options` says what a name has in the end: the value of the last argument that sets
it; if none does, the value in the file; if it is not there either, the value in the settings; and
otherwise nothing. A null is a value like others, so it takes the place of an earlier one. Where
reading the options fails, the first of the three sources that has a fault tells the error, and
among the arguments the leftmost (`Command.Faulty`).

The name of an argument stands before its first equals sign. The blanks around it are no part of it,
and neither are the colons before it (`Command.Names`); blanks after these colons are.
-/

namespace BoundQuery

namespace Text

variable {α : Type} {p : α → Bool} {cs inner : List Char}

theorem dropWhile_eq_iff {as rest : List α} :
    as.dropWhile p = rest ↔
      ∃ before, as = before ++ rest ∧ (∀ a ∈ before, p a = true) ∧
        ∀ a ∈ rest.head?, p a = false := by
  constructor
  · rintro rfl
    refine ⟨as.takeWhile p, List.takeWhile_append_dropWhile.symm, fun a => List.mem_takeWhile_imp,
      fun a ha => ?_⟩
    have hhead := List.head?_dropWhile_not p as
    rwa [Option.mem_def.mp ha] at hhead
  · rintro ⟨before, rfl, hbefore, hrest⟩
    rw [List.dropWhile_append_of_pos hbefore]
    cases rest with
    | nil => rfl
    | cons a rest => rw [List.dropWhile_cons_of_neg (by simpa using hrest a rfl)]

/-- Whether a text is another one without the blanks at its ends. -/
def IsTrimmed (cs inner : List Char) : Prop :=
  ∃ before after, cs = before ++ inner ++ after ∧ (∀ c ∈ before, isBlank c = true) ∧
    (∀ c ∈ after, isBlank c = true) ∧ (∀ c ∈ inner.head?, isBlank c = false) ∧
    ∀ c ∈ inner.getLast?, isBlank c = false

theorem toList_trim_eq_iff : (trim (String.ofList cs)).toList = inner ↔ IsTrimmed cs inner := by
  rw [trim, String.toList_ofList, String.toList_ofList, List.reverse_eq_iff]
  constructor
  · intro h
    obtain ⟨after, hafter, hblank, hlast⟩ := dropWhile_eq_iff.mp h
    rw [List.reverse_eq_iff, List.reverse_append, List.reverse_reverse] at hafter
    obtain ⟨before, rfl, hbefore, hhead⟩ := dropWhile_eq_iff.mp hafter
    refine ⟨before, after.reverse, (List.append_assoc ..).symm, hbefore, fun c hc => ?_, ?_, ?_⟩
    · exact hblank c (List.mem_reverse.mp hc)
    · exact fun c hc => hhead c (List.mem_head?_append_of_mem_head? hc)
    · rwa [List.head?_reverse] at hlast
  · rintro ⟨before, after, rfl, hbefore, hafter, hhead, hlast⟩
    cases inner with
    | nil =>
      have hall : (before ++ [] ++ after).dropWhile isBlank = [] := by
        rw [List.append_nil, List.dropWhile_append_of_pos hbefore]
        exact List.dropWhile_eq_nil_iff.mpr hafter
      rw [hall]
      rfl
    | cons c inner =>
      have hfront : (before ++ (c :: inner) ++ after).dropWhile isBlank = c :: inner ++ after :=
        dropWhile_eq_iff.mpr ⟨before, List.append_assoc .., hbefore, hhead⟩
      rw [hfront, List.reverse_append, dropWhile_eq_iff]
      refine ⟨after.reverse, rfl, fun d hd => hafter d (List.mem_reverse.mp hd), ?_⟩
      rwa [List.head?_reverse]

end Text

namespace Command

/-! ## One argument -/

variable {text name : String} {option : OptionValue} {written raw : List Char}

/-- Whether a name is what is written without the blanks around it and the colons before it. -/
def Names (written name : List Char) : Prop :=
  ∃ colons, Text.IsTrimmed written (colons ++ name) ∧ (∀ c ∈ colons, c = ':') ∧
    ∀ c ∈ name.head?, c ≠ ':'

/-- Whether an argument is a name, which is not empty, and a value with the first equals sign
between them. -/
def Cut (text name : String) (raw : List Char) : Prop :=
  ∃ written, text.toList = written ++ '=' :: raw ∧ '=' ∉ written ∧ Names written name.toList ∧
    name ≠ ""

/-- Whether an argument sets a name to an option. -/
def Sets (text name : String) (option : OptionValue) : Prop :=
  ∃ raw, Cut text name raw ∧ (settingValue (String.ofList raw)).Means option

/-- The fault of an argument: it has no name, or the value cannot be bound. -/
inductive Breaks (text : String) : CommandError → Prop
  | unnamed : (∀ name raw, ¬ Cut text name raw) → Breaks text (.setting text)
  | refused {name : String} {raw : List Char} {kind : UnboundKind} :
      Cut text name raw → (settingValue (String.ofList raw)).Refused kind →
      Breaks text (.invalid ⟨name, kind⟩)

theorem settingName_eq_iff : settingName written = name ↔ Names written name.toList := by
  have hlist : settingName written = name ↔
      (Text.trim (String.ofList written)).toList.dropWhile (· = ':') = name.toList := by
    rw [settingName, String.ofList_eq]
  rw [hlist, Text.dropWhile_eq_iff]
  simp only [Text.toList_trim_eq_iff, decide_eq_true_eq, decide_eq_false_iff_not, Names]

/-- What an argument with a name sets is told by its value. -/
theorem setting_of_cut (h : Cut text name raw) :
    setting text =
      match (settingValue (String.ofList raw)).toOption with
      | .ok value => .ok (name, value)
      | .error kind => .error (.invalid ⟨name, kind⟩) := by
  obtain ⟨written, htext, hwritten, hname, hne⟩ := h
  have hpos : ∀ c ∈ written, decide (c ≠ '=') = true := by
    intro c hc
    exact decide_eq_true fun heq => hwritten (heq ▸ hc)
  have htake : text.toList.takeWhile (· ≠ '=') = written := by
    rw [htext, List.takeWhile_append_of_pos hpos]
    simp
  have hdrop : text.toList.dropWhile (· ≠ '=') = '=' :: raw := by
    rw [htext, List.dropWhile_append_of_pos hpos]
    simp
  have hempty : ¬ name.isEmpty = true := by simpa using hne
  rw [setting, htake, hdrop, settingName_eq_iff.mpr hname]
  exact if_neg hempty

theorem setting_of_not_cut (h : ∀ name raw, ¬ Cut text name raw) :
    setting text = .error (.setting text) := by
  rw [setting]
  cases hdrop : text.toList.dropWhile (· ≠ '=') with
  | nil => rfl
  | cons c raw =>
    dsimp only
    refine if_pos ?_
    -- otherwise the argument could be cut at its first equals sign
    by_contra hempty
    have hhead := List.head?_dropWhile_not (fun d => decide (d ≠ '=')) text.toList
    rw [hdrop] at hhead
    obtain rfl : c = '=' := by simpa using hhead
    refine h _ raw ⟨text.toList.takeWhile (· ≠ '='), ?_, fun hmem => ?_,
      settingName_eq_iff.mp rfl, by simpa using hempty⟩
    · rw [← hdrop, List.takeWhile_append_dropWhile]
    · simpa using List.mem_takeWhile_imp hmem

theorem setting_eq_ok : setting text = .ok (name, option) ↔ Sets text name option := by
  constructor
  · intro h
    by_cases hcut : ∃ name raw, Cut text name raw
    · obtain ⟨name', raw, hcut⟩ := hcut
      rw [setting_of_cut hcut] at h
      cases hvalue : (settingValue (String.ofList raw)).toOption with
      | error kind =>
        rw [hvalue] at h
        cases h
      | ok value =>
        rw [hvalue] at h
        obtain ⟨rfl, rfl⟩ := Prod.mk.inj (Except.ok.inj h)
        exact ⟨raw, hcut, Json.toOption_eq_ok.mp hvalue⟩
    · rw [setting_of_not_cut fun name raw hname => hcut ⟨name, raw, hname⟩] at h
      cases h
  · rintro ⟨raw, hcut, hmeans⟩
    rw [setting_of_cut hcut, Json.toOption_eq_ok.mpr hmeans]

theorem setting_eq_error {e : CommandError} : setting text = .error e ↔ Breaks text e := by
  constructor
  · intro h
    by_cases hcut : ∃ name raw, Cut text name raw
    · obtain ⟨name, raw, hcut⟩ := hcut
      rw [setting_of_cut hcut] at h
      cases hvalue : (settingValue (String.ofList raw)).toOption with
      | error kind =>
        rw [hvalue] at h
        obtain rfl := Except.error.inj h
        exact .refused hcut (Json.toOption_eq_error.mp hvalue)
      | ok value =>
        rw [hvalue] at h
        cases h
    · have hnone : ∀ name raw, ¬ Cut text name raw := fun name raw hname => hcut ⟨name, raw, hname⟩
      rw [setting_of_not_cut hnone] at h
      obtain rfl := Except.error.inj h
      exact .unnamed hnone
  · rintro (hnone | ⟨hcut, hrefused⟩)
    · exact setting_of_not_cut hnone
    · rw [setting_of_cut hcut, Json.toOption_eq_error.mpr hrefused]

/-! ## One argument after the other -/

variable {o : Options} {texts : List String}

/-- The arguments are read first to last, and what they set is put into the map in this order. -/
theorem addSettings_eq (o : Options) (texts : List String) :
    addSettings o texts =
      (traverseExcept setting texts).map (List.foldl (fun o a => o.insert a.1 a.2) o) := by
  induction texts generalizing o with
  | nil => rfl
  | cons text texts ih =>
    rw [addSettings, traverseExcept]
    cases setting text with
    | error e => rfl
    | ok a =>
      dsimp only
      rw [ih]
      cases traverseExcept setting texts <;> rfl

/-! ## All sources -/

variable {a : Arguments} {settings : Settings} {file : File}

/-- The options of the file, if the arguments name one. -/
def fileOptions (a : Arguments) (file : File) : Except FileError Options :=
  match a.optionFile with
  | some path => Options.ofFile path file
  | none => .ok .empty

/-- The error of the first source that has a fault. -/
inductive Faulty (a : Arguments) (settings : Settings) (file : File) : CommandError → Prop
  | defaults {e : InvalidOption} :
      settings.defaultOptions = .error e → Faulty a settings file (.defaults e)
  | file {defaults : Options} {e : FileError} :
      settings.defaultOptions = .ok defaults → fileOptions a file = .error e →
      Faulty a settings file (.file e)
  | setting {defaults later : Options} {before after : List String} {text : String}
      {e : CommandError} :
      settings.defaultOptions = .ok defaults → fileOptions a file = .ok later →
      a.settings = before ++ text :: after →
      (∀ t ∈ before, ∃ name option, Sets t name option) → Breaks text e →
      Faulty a settings file e

/-- The sources are read one after the other. -/
theorem options_eq (a : Arguments) (settings : Settings) (file : File) :
    options a settings file =
      match settings.defaultOptions, fileOptions a file with
      | .error e, _ => .error (.defaults e)
      | .ok _, .error e => .error (.file e)
      | .ok defaults, .ok later => addSettings (defaults.override later) a.settings := by
  rw [options, fileOptions]
  cases settings.defaultOptions with
  | error e => rfl
  | ok defaults =>
    cases a.optionFile with
    | none => rfl
    | some path =>
      dsimp only
      cases Options.ofFile path file <;> rfl

/-- Every argument sets a name, and the map is that of the settings and the file with these put into
it. -/
theorem options_eq_ok :
    options a settings file = .ok o ↔
      ∃ (defaults later : Options) (assigned : List (String × OptionValue)),
        settings.defaultOptions = .ok defaults ∧ fileOptions a file = .ok later ∧
        List.Forall₂ (fun text b => Sets text b.1 b.2) a.settings assigned ∧
        assigned.foldl (fun o b => o.insert b.1 b.2) (defaults.override later) = o := by
  rw [options_eq]
  constructor
  · intro h
    cases hdefaults : settings.defaultOptions with
    | error e =>
      rw [hdefaults] at h
      cases h
    | ok defaults =>
      cases hfile : fileOptions a file with
      | error e =>
        rw [hdefaults, hfile] at h
        cases h
      | ok later =>
        rw [hdefaults, hfile] at h
        dsimp only at h
        rw [addSettings_eq] at h
        obtain ⟨assigned, htraverse, ho⟩ := Success.map_eq_ok.mp h
        have hsets := (traverseExcept_eq_ok.mp htraverse).imp fun _ _ => setting_eq_ok.mp
        exact ⟨defaults, later, assigned, rfl, rfl, hsets, ho⟩
  · rintro ⟨defaults, later, assigned, hdefaults, hfile, hsets, rfl⟩
    have htraverse : traverseExcept setting a.settings = .ok assigned :=
      traverseExcept_eq_ok.mpr (hsets.imp fun _ _ => setting_eq_ok.mpr)
    rw [hdefaults, hfile]
    dsimp only
    rw [addSettings_eq, htraverse]
    rfl

theorem options_eq_error {e : CommandError} :
    options a settings file = .error e ↔ Faulty a settings file e := by
  rw [options_eq]
  constructor
  · intro h
    -- the sources are read one after the other, each only if those before it could be
    cases hdefaults : settings.defaultOptions with
    | error e' =>
      rw [hdefaults] at h
      cases h
      exact .defaults hdefaults
    | ok defaults =>
      cases hfile : fileOptions a file with
      | error e' =>
        rw [hdefaults, hfile] at h
        cases h
        exact .file hdefaults hfile
      | ok later =>
        rw [hdefaults, hfile] at h
        dsimp only at h
        rw [addSettings_eq, map_eq_error, traverseExcept_eq_error] at h
        obtain ⟨before, text, after, hsplit, hbefore, htext⟩ := h
        refine .setting hdefaults hfile hsplit (fun t ht => ?_) (setting_eq_error.mp htext)
        obtain ⟨b, hb⟩ := hbefore t ht
        exact ⟨b.1, b.2, setting_eq_ok.mp hb⟩
  · intro h
    cases h with
    | defaults hdefaults => rw [hdefaults]
    | file hdefaults hfile => rw [hdefaults, hfile]
    | setting hdefaults hfile hsplit hbefore htext =>
      rw [hdefaults, hfile]
      dsimp only
      rw [addSettings_eq, map_eq_error, traverseExcept_eq_error]
      refine ⟨_, _, _, hsplit, fun t ht => ?_, setting_eq_error.mpr htext⟩
      obtain ⟨name, option, hsets⟩ := hbefore t ht
      exact ⟨_, setting_eq_ok.mpr hsets⟩

/-- **Precedence.** Where the options are read, a name has the value of the last argument that sets
it; without one, its value in the file; without that, its value in the settings; and otherwise none.
Where they are not, the error is that of the first source with a fault: the settings, the file, or
the leftmost faulty argument. -/
theorem find?_options (a : Arguments) (settings : Settings) (file : File) :
    (∀ o, options a settings file = .ok o →
      ∃ defaults later assigned, settings.defaultOptions = .ok defaults ∧
        fileOptions a file = .ok later ∧
        List.Forall₂ (fun text b => Sets text b.1 b.2) a.settings assigned ∧
        ∀ name, o.find? name =
          ((assigned.reverse.lookup name).or (later.find? name)).or (defaults.find? name)) ∧
    (∀ e, options a settings file = .error e ↔ Faulty a settings file e) := by
  refine ⟨fun o h => ?_, fun e => options_eq_error⟩
  obtain ⟨defaults, later, assigned, hdefaults, hfile, hsets, rfl⟩ := options_eq_ok.mp h
  refine ⟨defaults, later, assigned, hdefaults, hfile, hsets, fun name => ?_⟩
  have hlater : (defaults.override later).find? name =
      (later.find? name).or (defaults.find? name) :=
    Options.find?_override
  rw [Option.or_assoc, ← hlater]
  exact Options.find?_foldl_insert

/-- The case of an argument with a null, which takes the place of an earlier argument and of the
settings' value, and of two faulty arguments, of which the first, without a name, is told. -/
theorem find?_options_null :
    let a : Arguments :=
      { Arguments.empty with
        optionFile := some "o.json"
        settings := [" :a = 1", "b=x", "::a=null"] }
    let settings : Settings :=
      { Settings.initial with defaults := [("a", .bool true), ("c", .bool true), ("d", .text "y")] }
    let file : File := .text "\x7b\"b\": 2, \"c\": [1, null]\x7d"
    let o : Options :=
      .ofList [("a", .null), ("b", .scalar (.text "x")), ("c", .list [some (.int 1), none]),
        ("d", .scalar (.text "y"))]
    let faulty : Arguments := { Arguments.empty with settings := ["b=x", ":=1", "a=\x7b\x7d"] }
    options a settings file = .ok o ∧
      (∃ defaults later assigned, settings.defaultOptions = .ok defaults ∧
        fileOptions a file = .ok later ∧
        List.Forall₂ (fun text b => Sets text b.1 b.2) a.settings assigned ∧
        ∀ name, o.find? name =
          ((assigned.reverse.lookup name).or (later.find? name)).or (defaults.find? name)) ∧
      o.find? "a" = some .null ∧ o.find? "e" = none ∧
      Faulty faulty settings .missing (.setting ":=1") := by
  intro a settings file o faulty
  have hentries : ((options a settings file).map Options.entries).toOption = some o.entries := by
    decide +kernel
  have hoptions : options a settings file = .ok o := by
    obtain ⟨o', ho', heq⟩ := Success.map_eq_ok.mp (Success.toOption_eq_some.mp hentries)
    rw [ho']
    exact congrArg Except.ok (Options.ext heq)
  exact ⟨hoptions, (find?_options a settings file).1 o hoptions, rfl, rfl,
    ((find?_options faulty settings .missing).2 _).mp rfl⟩

end Command

end BoundQuery
