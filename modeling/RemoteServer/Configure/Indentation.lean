import RemoteServer.Configure.RoundTrip

/-! Indented settings and lines without a value. What a file says is independent of
the one and of the other; the loader, which splits a line at its first space, reads no
indented line and takes a line that is only a key for its own value. -/
namespace RemoteServer
open Configure InputStream Loop StdString

/-- A line of a file, whatever it holds. -/
abbrev TextLine := { line : List UInt8 // newline ∉ line }

def isBlank (b : UInt8) : Bool := b = space || b = 9

/-- The bytes between the first and the last that are no spaces. -/
def strip (s : List UInt8) : List UInt8 := (s.rdropWhile (· = space)).dropWhile (· = space)

namespace TextLine

/-- The line from its key on. -/
def body (line : TextLine) : List UInt8 := line.val.dropWhile isBlank

def key (line : TextLine) : List UInt8 := line.body.takeWhile fun b => !isSeparator b

/-- What follows the key, without the separators around it; those within it are spaces. -/
def value (line : TextLine) : List UInt8 :=
  strip ((line.body.dropWhile fun b => !isSeparator b).map detab)

def Valueless (line : TextLine) : Prop := line.key ≠ [] ∧ line.value = []

/-- The line gives the key a value, wherever it begins. -/
def sets (key : List UInt8) (line : TextLine) : Option (List UInt8) :=
  if line.key = key ∧ line.value ≠ [] then some line.value else none

/-- The line begins with the key, in column one. It then states its value, which may
be empty, or the key itself when nothing follows it, not even a separator. -/
def begins (key : List UInt8) (line : TextLine) : Option (List UInt8) :=
  if (line.val.takeWhile fun b => !isSeparator b) = key then
    some (if line.val = key then key else line.value)
  else none

/-- The bytes of a file, with or without a newline at the end. -/
def file (lines : List TextLine) (final : Bool) : List UInt8 :=
  join (lines.map Subtype.val) ++ if final then [newline] else []

/-- The last value given to the key, or the default, or nothing. -/
def given (lines : List TextLine) (key : List UInt8) : List UInt8 :=
  ((lines.reverse.findSome? (sets key)).or (Configure.new key)).getD []

/-- What the last line that begins with the key states, or the default, or nothing. -/
def stated (lines : List TextLine) (key : List UInt8) : List UInt8 :=
  ((lines.reverse.findSome? (begins key)).or (Configure.new key)).getD []

/-- The files differ only in the spaces and tabs in front of their lines and in the
presence of lines with a key and no value. -/
inductive SameSettings : List TextLine → List TextLine → Prop where
  | nil : SameSettings [] []
  | line {line line' : TextLine} {lines lines' : List TextLine} : line.body = line'.body →
      SameSettings lines lines' → SameSettings (line :: lines) (line' :: lines')
  | left {line : TextLine} {lines lines' : List TextLine} : line.Valueless →
      SameSettings lines lines' → SameSettings (line :: lines) lines'
  | right {line : TextLine} {lines lines' : List TextLine} : line.Valueless →
      SameSettings lines lines' → SameSettings lines (line :: lines')

end TextLine

/-- `getValue`: a key that is not in the map has the empty value. -/
def Configuration.getValue (cfg : Configuration) (key : List UInt8) : List UInt8 := (cfg.m_info key).getD []

/-- The same value for every nonempty key, and the same members. -/
structure Configuration.Agrees (cfg cfg' : Configuration) : Prop where
  value : ∀ key, key ≠ [] → cfg.getValue key = cfg'.getValue key
  members : cfg.toConfigure = cfg'.toConfigure
  m_staticPort : cfg.m_staticPort = cfg'.m_staticPort
  m_sleepMill : cfg.m_sleepMill = cfg'.m_sleepMill
  m_loglevel : cfg.m_loglevel = cfg'.m_loglevel

/-- The values are those the file says, and the members are made from them. -/
def Configuration.Honours (cfg : Configuration) (lines : List TextLine) : Prop :=
  cfg.Agrees (initMember fun key => some (TextLine.given lines key))

/-- Every first call on a file with these bytes returns this object. -/
def Loads (bytes : List UInt8) (cfg : Configuration) : Prop :=
  ∀ (files : FileSystem) (filePath : List UInt8) (statics : Statics), statics.m_cfg = none →
    files filePath = some (bytes, .eof) →
    ∃ p statics', Returns (readConfigFile files filePath statics) (p, statics') ∧
      statics'.objects p = some cfg

/-- First calls on the two files return objects that agree, and each has what its file
says. -/
def Insignificant (lines lines' : List TextLine) (final final' : Bool) : Prop :=
  ∃ cfg cfg', Loads (TextLine.file lines final) cfg ∧ Loads (TextLine.file lines' final') cfg' ∧
    cfg.Agrees cfg' ∧ cfg.Honours lines ∧ cfg'.Honours lines'

/-- No line is too long, and for every key the last line that begins with it states
what the last line that gives it a value does. -/
structure TextLine.Plain (lines : List TextLine) : Prop where
  short : ∀ line ∈ lines, line.val.length < 2 ^ 32
  stated : ∀ key, key ≠ [] → TextLine.stated lines key = TextLine.given lines key

variable {line line' : TextLine} {lines lines' : List TextLine} {key bytes : List UInt8}
  {cfg cfg' cfg'' : Configuration} {m_info m_info' : Info} {final final' : Bool}

theorem detab_eq_space (b : UInt8) : decide (detab b = space) = isSeparator b := by
  by_cases separator : isSeparator b = true
  · rw [separator, detab_separator separator]
    rfl
  · have plain : isTab b = false := by
      simp [isSeparator] at separator
      exact separator.2
    have other : b ≠ space := by
      simp [isSeparator] at separator
      exact separator.1
    rw [detab_plain plain, Bool.eq_false_iff.mpr separator]
    exact decide_eq_false other

theorem strip_space_cons (s : List UInt8) : strip (space :: s) = strip s := by
  simp only [strip, List.rdropWhile, List.reverse_cons, List.dropWhile_append]
  split
  · rename_i empty
    rw [List.isEmpty_iff.mp empty]
    rfl
  · rw [List.reverse_append, List.reverse_singleton, List.singleton_append]
    exact List.dropWhile_cons_of_pos (decide_eq_true rfl)

namespace TextLine

theorem body_of_begins (nonempty : key ≠ [])
    (starts : (line.val.takeWhile fun b => !isSeparator b) = key) : line.body = line.val := by
  cases text : line.val with
  | nil => rw [body, text]; rfl
  | cons b rest =>
    have first : ¬isSeparator b = true := by
      intro separator
      rw [text, List.takeWhile_cons_of_neg (by simpa using separator)] at starts
      exact nonempty starts.symm
    have inked : ¬isBlank b = true := by
      intro blank
      simp only [isBlank, isSeparator, isTab, Bool.or_eq_true, decide_eq_true_eq] at blank first
      tauto
    rw [body, text, List.dropWhile_cons_of_neg inked]

end TextLine

theorem readCommonConfig_spaced {text : List UInt8} (found : space ∈ text) (fits : text.length < npos)
    (m_info : Info) :
    readCommonConfig m_info text =
      m_info.put (text.takeWhile (· ≠ space)) (strip (text.dropWhile (· ≠ space))) := by
  obtain ⟨word, rest, rfl, absent⟩ := List.eq_append_cons_of_mem found
  have sizes := fits
  rw [List.length_append, List.length_cons] at sizes
  rw [readCommonConfig, substr_before fits, substr_after fits found, takeWhile_ne_append absent,
    dropWhile_ne_append absent, List.tail_cons, trim_unspaced absent (by omega), trim_eq (by omega),
    strip_space_cons, strip]

section Line
variable (line)

theorem takeWhile_detab :
    (line.val.map detab).takeWhile (· ≠ space) = line.val.takeWhile fun b => !isSeparator b := by
  have test : ((fun b : UInt8 => decide (b ≠ space)) ∘ detab) = fun b => !isSeparator b := by
    funext b
    rw [Function.comp_apply, decide_not, detab_eq_space]
  rw [List.takeWhile_map, test, map_detab_plain]
  intro b member
  have inked := List.mem_takeWhile_imp member
  simp [isSeparator] at inked
  exact inked.2

theorem dropWhile_detab :
    (line.val.map detab).dropWhile (· ≠ space) = (line.val.dropWhile fun b => !isSeparator b).map detab := by
  have test : ((fun b : UInt8 => decide (b ≠ space)) ∘ detab) = fun b => !isSeparator b := by
    funext b
    rw [Function.comp_apply, decide_not, detab_eq_space]
  rw [List.dropWhile_map, test]

/-- The loader enters for a key what the lines that begin with it state. -/
theorem readCommonConfig_begins (short : line.val.length < 2 ^ 32) (nonempty : key ≠ []) (m_info : Info) :
    readCommonConfig m_info (line.val.map detab) key = (line.begins key).or (m_info key) := by
  have fits : (line.val.map detab).length < npos := by
    rw [List.length_map, npos]
    omega
  have word := takeWhile_detab line
  by_cases found : space ∈ line.val.map detab
  · rw [readCommonConfig_spaced found fits, word, dropWhile_detab, Info.put, Function.update_apply,
      TextLine.begins]
    by_cases starts : (line.val.takeWhile fun b => !isSeparator b) = key
    · have longer : line.val ≠ key := by
        intro same
        have kept : (line.val.map detab).takeWhile (· ≠ space) = line.val.map detab := by
          refine (List.takeWhile_prefix _).eq_of_length ?_
          rw [word, starts, List.length_map, same]
        rw [← kept] at found
        simpa using List.mem_takeWhile_imp found
      rw [if_pos starts.symm, if_pos starts, if_neg longer, TextLine.value,
        TextLine.body_of_begins nonempty starts]
      rfl
    · rw [if_neg (Ne.symm starts), if_neg starts]
      rfl
  · have plain : line.val.map detab = line.val.takeWhile fun b => !isSeparator b := by
      rw [← word, takeWhile_ne found]
    have whole : line.val.map detab = line.val := by
      have length := congrArg List.length plain
      rw [List.length_map] at length
      rw [plain]
      exact (List.takeWhile_prefix _).eq_of_length length.symm
    rw [whole] at plain found fits ⊢
    rw [readCommonConfig_bare m_info found fits, Info.put, Function.update_apply, TextLine.begins, ← plain]
    by_cases starts : line.val = key
    · rw [if_pos starts.symm, if_pos starts, if_pos starts, starts]
      rfl
    · rw [if_neg (Ne.symm starts), if_neg starts]
      rfl

end Line

namespace Configuration.Agrees

theorem symm (agrees : cfg.Agrees cfg') : cfg'.Agrees cfg where
  value key nonempty := (agrees.value key nonempty).symm
  members := agrees.members.symm
  m_staticPort := agrees.m_staticPort.symm
  m_sleepMill := agrees.m_sleepMill.symm
  m_loglevel := agrees.m_loglevel.symm

theorem trans (first : cfg.Agrees cfg') (second : cfg'.Agrees cfg'') : cfg.Agrees cfg'' where
  value key nonempty := (first.value key nonempty).trans (second.value key nonempty)
  members := first.members.trans second.members
  m_staticPort := first.m_staticPort.trans second.m_staticPort
  m_sleepMill := first.m_sleepMill.trans second.m_sleepMill
  m_loglevel := first.m_loglevel.trans second.m_loglevel

end Configuration.Agrees

theorem touch_value (m_info : Info) (names : List String) (key : List UInt8) :
    (names.foldl Info.touch m_info key).getD [] = (m_info key).getD [] := by
  induction names generalizing m_info with
  | nil => rfl
  | cons name names ih =>
    rw [List.foldl_cons, ih, Info.touch]
    split
    · rfl
    · rename_i absent
      rw [Info.put, Function.update_apply]
      split
      · rename_i same
        rw [same, Option.not_isSome_iff_eq_none.mp absent]
        rfl
      · rfl

theorem getValue_initMember (m_info : Info) (key : List UInt8) :
    (initMember m_info).getValue key = (m_info key).getD [] :=
  touch_value m_info _ key

theorem initMember_agrees (same : ∀ key, key ≠ [] → (m_info key).getD [] = (m_info' key).getD []) :
    (initMember m_info).Agrees (initMember m_info') := by
  have gets {name : String} (nonempty : chars name ≠ []) : m_info.get name = m_info'.get name :=
    same _ nonempty
  constructor
  · intro key nonempty
    rw [getValue_initMember, getValue_initMember, same key nonempty]
  · simp only [initMember, Configure.mk.injEq]
    refine ⟨gets (by decide), ?_, ?_, ?_, ?_, ?_⟩
    all_goals exact congrArg toInt (gets (by decide))
  · exact congrArg toShort (gets (by decide))
  · exact congrArg toInt (gets (by decide))
  · exact congrArg toInt (gets (by decide))

namespace TextLine

theorem file_padded (lines : List TextLine) (final : Bool) :
    ∃ padded, padded ≠ [] ∧ file lines final = join (padded.map Subtype.val) ∧
      (∀ line ∈ lines, line ∈ padded) ∧ (∀ line ∈ padded, line ∈ lines ∨ line.val = []) ∧
      ∀ key, key ≠ [] → stated padded key = stated lines key := by
  obtain ⟨n, nonempty, same⟩ := join_padded (lines.map Subtype.val) final
  let blank : TextLine := ⟨[], List.not_mem_nil⟩
  have texts : (lines ++ List.replicate n blank).map Subtype.val =
      lines.map Subtype.val ++ List.replicate n [] := by
    rw [List.map_append, List.map_replicate]
  refine ⟨lines ++ List.replicate n blank, ?_, same.trans (congrArg join texts.symm),
    fun line => List.mem_append_left _, ?_, ?_⟩
  · rw [← texts] at nonempty
    exact fun empty => nonempty (by rw [empty, List.map_nil])
  · intro line member
    refine (List.mem_append.mp member).imp_right fun added => ?_
    rw [List.eq_of_mem_replicate added]
  · intro key isKey
    have skipped : blank.begins key = none := if_neg fun same => isKey same.symm
    rw [stated, List.reverse_append, List.reverse_replicate, List.findSome?_append,
      List.findSome?_replicate_of_isNone (Option.isNone_iff_eq_none.mpr skipped), Option.none_or, stated]

theorem texts_free (lines : List TextLine) : ∀ text ∈ lines.map Subtype.val, newline ∉ text :=
  List.forall_mem_map.mpr fun line _ => line.property

end TextLine

namespace Loads

theorem unique (first : Loads bytes cfg) (second : Loads bytes cfg') : cfg' = cfg := by
  obtain ⟨p, statics, returns, object⟩ := first (fun _ => some (bytes, .eof)) [] .init rfl rfl
  obtain ⟨q, statics', returns', object'⟩ := second (fun _ => some (bytes, .eof)) [] .init rfl rfl
  obtain ⟨rfl, rfl⟩ := Prod.mk.inj (returns.unique returns')
  exact Option.some.inj (object'.symm.trans object)

theorem short (loads : Loads (TextLine.file lines final) cfg) :
    ∀ line ∈ lines, line.val.length < 2 ^ 32 := by
  intro line member
  by_contra long
  obtain ⟨p, statics, returns, _⟩ :=
    loads (fun _ => some (TextLine.file lines final, .eof)) [] .init rfl rfl
  obtain ⟨padded, _, same, kept, _⟩ := TextLine.file_padded lines final
  have loops := readLines_diverges_long (TextLine.texts_free padded)
    ⟨_, List.mem_map_of_mem (kept line member), Nat.le_of_not_lt long⟩ Configure.new
  rw [← same] at loops
  exact returns.not_diverges (readConfigFile_diverges rfl rfl loops)

end Loads

theorem loads_file (short : ∀ line ∈ lines, line.val.length < 2 ^ 32) (final : Bool) :
    ∃ m_info, Loads (TextLine.file lines final) (initMember m_info) ∧
      ∀ key, key ≠ [] → (m_info key).getD [] = TextLine.stated lines key := by
  obtain ⟨padded, nonempty, same, _, only, stated⟩ := TextLine.file_padded lines final
  have short' : ∀ line ∈ padded, line.val.length < 2 ^ 32 := by
    intro line member
    rcases only line member with listed | empty
    · exact short line listed
    · rw [empty]
      decide
  obtain ⟨ios, returns⟩ := readLines_returns (mt List.map_eq_nil_iff.mp nonempty)
    (TextLine.texts_free padded) (List.forall_mem_map.mpr short') Configure.new
  rw [← same] at returns
  refine ⟨_, fun files filePath statics first present =>
    ⟨_, _, readConfigFile_returns first present returns, Statics.load_self ..⟩, fun key isKey => ?_⟩
  rw [List.foldl_map, ← stated key isKey]
  refine congrArg (Option.getD · []) (foldl_last (fun line member m_info => ?_) Configure.new)
  exact readCommonConfig_begins line (short' line member) isKey m_info

/-- An object loaded from a file honours it exactly when the file is plain. -/
theorem honours_iff (loads : Loads (TextLine.file lines final) cfg) :
    cfg.Honours lines ↔ TextLine.Plain lines := by
  have short := loads.short
  obtain ⟨m_info, loads', values⟩ := loads_file short final
  obtain rfl := loads'.unique loads
  constructor
  · intro honours
    refine ⟨short, fun key isKey => ?_⟩
    have value := honours.value key isKey
    rw [getValue_initMember, getValue_initMember, values key isKey] at value
    exact value
  · intro plain
    exact initMember_agrees fun key isKey => (values key isKey).trans (plain.stated key isKey)

/-- The objects loaded from two files agree exactly when, for every key, the last lines
that begin with it state the same. -/
theorem agrees_iff (loads : Loads (TextLine.file lines final) cfg)
    (loads' : Loads (TextLine.file lines' final') cfg') :
    cfg.Agrees cfg' ↔ ∀ key, key ≠ [] → TextLine.stated lines key = TextLine.stated lines' key := by
  obtain ⟨m_info, first, values⟩ := loads_file loads.short final
  obtain ⟨m_info', second, values'⟩ := loads_file loads'.short final'
  obtain rfl := first.unique loads
  obtain rfl := second.unique loads'
  constructor
  · intro agrees key isKey
    have value := agrees.value key isKey
    rwa [getValue_initMember, getValue_initMember, values key isKey, values' key isKey] at value
  · intro same
    apply initMember_agrees
    intro key isKey
    rw [values key isKey, values' key isKey, same key isKey]

namespace TextLine

theorem sets_body (same : line.body = line'.body) (key : List UInt8) : line.sets key = line'.sets key := by
  rw [sets, sets, TextLine.key, TextLine.key, value, value, same]

theorem Valueless.sets (valueless : line.Valueless) (key : List UInt8) : line.sets key = none :=
  if_neg fun gives => gives.2 valueless.2

theorem SameSettings.given (same : SameSettings lines lines') (key : List UInt8) :
    TextLine.given lines key = TextLine.given lines' key := by
  have last : lines.reverse.findSome? (TextLine.sets key) =
      lines'.reverse.findSome? (TextLine.sets key) := by
    induction same with
    | nil => rfl
    | line body _ ih =>
      rw [List.reverse_cons, List.reverse_cons, List.findSome?_append, List.findSome?_append, ih,
        List.findSome?_singleton, List.findSome?_singleton, sets_body body key]
    | left valueless _ ih =>
      rw [List.reverse_cons, List.findSome?_append, ih, List.findSome?_singleton, valueless.sets key,
        Option.or_none]
    | right valueless _ ih =>
      rw [List.reverse_cons, List.findSome?_append, ih, List.findSome?_singleton, valueless.sets key,
        Option.or_none]
  rw [TextLine.given, TextLine.given, last]

end TextLine

/-- The loader takes the differences for insignificant exactly when both files are
plain. -/
theorem insignificant_iff (same : TextLine.SameSettings lines lines') (final final' : Bool) :
    Insignificant lines lines' final final' ↔ TextLine.Plain lines ∧ TextLine.Plain lines' := by
  constructor
  · rintro ⟨cfg, cfg', loads, loads', _, honours, honours'⟩
    exact ⟨(honours_iff loads).mp honours, (honours_iff loads').mp honours'⟩
  · rintro ⟨plain, plain'⟩
    obtain ⟨m_info, loads, _⟩ := loads_file plain.short final
    obtain ⟨m_info', loads', _⟩ := loads_file plain'.short final'
    have honours := (honours_iff loads).mpr plain
    have honours' := (honours_iff loads').mpr plain'
    refine ⟨_, _, loads, loads', ?_, honours, honours'⟩
    refine honours.trans (.trans ?_ honours'.symm)
    exact initMember_agrees fun key _ => same.given key

/-- A line that is read as it is meant: not indented if it gives a value, and indented
if it gives none. -/
def TextLine.Tidy (line : TextLine) : Prop :=
  if line.value = [] then line.key ≠ [] → line.body ≠ line.val else line.body = line.val

namespace TextLine

theorem Tidy.begins (tidy : line.Tidy) (nonempty : key ≠ []) : line.begins key = line.sets key := by
  rw [TextLine.begins, TextLine.sets]
  by_cases starts : (line.val.takeWhile fun b => !isSeparator b) = key
  · have body := body_of_begins nonempty starts
    have named : line.key = key := by rw [TextLine.key, body, starts]
    by_cases empty : line.value = []
    · rw [Tidy, if_pos empty] at tidy
      exact absurd body (tidy (named ▸ nonempty))
    · have longer : line.val ≠ key := by
        intro same
        rw [← same, List.takeWhile_eq_self_iff] at starts
        rw [value, body, List.dropWhile_eq_nil_iff.mpr starts] at empty
        exact empty rfl
      rw [if_pos starts, if_neg longer, if_pos ⟨named, empty⟩]
  · rw [if_neg starts, if_neg]
    rintro ⟨named, valued⟩
    rw [Tidy, if_neg valued] at tidy
    rw [TextLine.key, tidy] at named
    exact starts named

theorem Plain.of_tidy (short : ∀ line ∈ lines, line.val.length < 2 ^ 32)
    (tidy : ∀ line ∈ lines, line.Tidy) : Plain lines := by
  refine ⟨short, fun key isKey => ?_⟩
  have same : lines.reverse.findSome? (TextLine.begins key) =
      lines.reverse.findSome? (TextLine.sets key) := by
    clear short
    induction lines with
    | nil => rfl
    | cons line lines ih =>
      rw [List.forall_mem_cons] at tidy
      rw [List.reverse_cons, List.findSome?_append, List.findSome?_append, ih tidy.2,
        List.findSome?_singleton, List.findSome?_singleton, tidy.1.begins isKey]
  exact congrArg (fun last => (last.or (Configure.new key)).getD []) same

end TextLine

instance (line : TextLine) : Decidable line.Tidy :=
  inferInstanceAs (Decidable
    (if line.value = [] then line.key ≠ [] → line.body ≠ line.val else line.body = line.val))

def plainSetting : TextLine := ⟨chars "max_qps 5", by decide⟩

def indentedKey : TextLine := ⟨chars "\tlog_level ", by decide⟩

theorem insignificant_iff_plainSetting :
    Insignificant [plainSetting, indentedKey] [plainSetting] true false := by
  have same : TextLine.SameSettings [plainSetting, indentedKey] [plainSetting] :=
    .line rfl (.left ⟨by decide, by decide⟩ .nil)
  refine (insignificant_iff same true false).mpr ⟨.of_tidy ?_ ?_, .of_tidy ?_ ?_⟩
  all_goals decide

def indentedSetting : TextLine := ⟨chars " max_qps 5", by decide⟩

/-- The two files differ in one space, and the objects in `max_qps`. -/
theorem not_insignificant :
    ¬∀ (lines lines' : List TextLine) (final final' : Bool), TextLine.SameSettings lines lines' →
      Insignificant lines lines' final final' := by
  intro insignificant
  obtain ⟨cfg, cfg', loads, loads', agrees, _⟩ :=
    insignificant [indentedSetting] [plainSetting] true true (.line rfl .nil)
  have same := (agrees_iff loads loads').mp agrees (chars "max_qps") (by decide)
  have differ : TextLine.stated [indentedSetting] (chars "max_qps") ≠
      TextLine.stated [plainSetting] (chars "max_qps") := by
    decide +kernel
  exact differ same

end RemoteServer
