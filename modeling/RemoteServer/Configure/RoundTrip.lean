import RemoteServer.Configure.Termination

/-! What a configuration file says, line by line, and that the loader reads just that. -/
namespace RemoteServer
open Configure InputStream Loop StdString

/-- A key is nonempty and free of white space. -/
def IsKey (key : List UInt8) : Prop := key ≠ [] ∧ ∀ b ∈ key, Decimal.isSpace b = false

structure Setting where
  key : List UInt8
  value : List UInt8

structure Setting.WellFormed (s : Setting) : Prop where
  key : IsKey s.key
  nonempty : s.value ≠ []
  plain : ∀ b ∈ s.value, b ≠ newline ∧ isTab b = false
  first : s.value.head? ≠ some space
  last : s.value.getLast? ≠ some space

def isSeparator (b : UInt8) : Bool := b = space || isTab b

/-- A line holds a setting, with separators after the key and possibly at the end,
or it is blank. -/
inductive ConfigLine where
  | setting (s : Setting) (gap tail : List UInt8)
  | blank (run : List UInt8)

namespace ConfigLine

def text : ConfigLine → List UInt8
  | .setting s gap tail => s.key ++ gap ++ s.value ++ tail
  | .blank run => run

def WellFormed : ConfigLine → Prop
  | .setting s gap tail => s.WellFormed ∧ gap ≠ [] ∧ (∀ b ∈ gap, isSeparator b = true) ∧
      ∀ b ∈ tail, isSeparator b = true
  | .blank run => ∀ b ∈ run, b ≠ newline ∧ (Decimal.isSpace b = true ∨ isSeparator b = true)

/-- A backspace is no white space, but it would end the key. -/
def Unbroken : ConfigLine → Prop
  | .setting s _ _ => 8 ∉ s.key
  | .blank _ => True

def valueOf (key : List UInt8) : ConfigLine → Option (List UInt8)
  | .setting s _ _ => if s.key = key then some s.value else none
  | .blank _ => none

end ConfigLine

/-! The conditions on a byte are checked along the list. -/

instance (key : List UInt8) : Decidable (IsKey key) :=
  decidable_of_iff (key ≠ [] ∧ key.all fun b => !Decimal.isSpace b) (by simp [IsKey])

instance (s : Setting) : Decidable s.WellFormed :=
  decidable_of_iff (IsKey s.key ∧ s.value ≠ [] ∧ (s.value.all fun b => b ≠ newline && !isTab b) ∧
      s.value.head? ≠ some space ∧ s.value.getLast? ≠ some space)
    ⟨fun ⟨key, nonempty, plain, first, last⟩ => ⟨key, nonempty, by simpa using plain, first, last⟩,
      fun ⟨key, nonempty, plain, first, last⟩ => ⟨key, nonempty, by simpa using plain, first, last⟩⟩

instance : (line : ConfigLine) → Decidable line.WellFormed
  | .setting s gap tail =>
    decidable_of_iff (s.WellFormed ∧ gap ≠ [] ∧ gap.all isSeparator ∧ tail.all isSeparator)
      (by simp [ConfigLine.WellFormed])
  | .blank run =>
    decidable_of_iff (run.all fun b => b ≠ newline && (Decimal.isSpace b || isSeparator b))
      (by simp [ConfigLine.WellFormed])

instance : (line : ConfigLine) → Decidable line.Unbroken
  | .setting s _ _ => inferInstanceAs (Decidable (8 ∉ s.key))
  | .blank _ => .isTrue trivial

/-- The bytes of a file, with or without a newline at the end. -/
def fileText (lines : List ConfigLine) (final : Bool) : List UInt8 :=
  join (lines.map ConfigLine.text) ++ if final then [newline] else []

/-- The last value listed for a key. -/
def lastValue (lines : List ConfigLine) (key : List UInt8) : Option (List UInt8) :=
  lines.reverse.findSome? (ConfigLine.valueOf key)

/-- That value, or the constructor's default if the key is not listed. -/
def valueIn (lines : List ConfigLine) (key : List UInt8) : Option (List UInt8) :=
  (lastValue lines key).or (Configure.new key)

/-- The value of the key is the numeral `n`, from `least` to `greatest`. -/
structure States (lines : List ConfigLine) (key : String) (least greatest n : Int) : Prop where
  numeral : ∃ value, valueIn lines (chars key) = some value ∧ Decimal.Numeral value n
  least : least ≤ n
  greatest : n ≤ greatest

abbrev StatesInt (lines : List ConfigLine) (key : String) (n : Int) : Prop :=
  States lines key (-2 ^ 31) (2 ^ 31 - 1) n

/-- The object has what the lines say. -/
structure Configuration.Reads (cfg : Configuration) (lines : List ConfigLine) : Prop where
  m_info : ∀ key, IsKey key → cfg.m_info key = valueIn lines key
  m_host : some cfg.m_host = valueIn lines (chars "host")
  m_staticPort : ∀ n, States lines "static_port" 0 65535 n → (cfg.m_staticPort.toNat : Int) = n
  m_loginTimeout : ∀ n, StatesInt lines "login_timeout" n → cfg.m_loginTimeout = n
  m_matchTimeout : ∀ n, StatesInt lines "match_timeout" n → cfg.m_matchTimeout = n
  m_activeTimeout : ∀ n, StatesInt lines "active_timeout" n → cfg.m_activeTimeout = n
  m_maxQps : ∀ n, StatesInt lines "max_qps" n → cfg.m_maxQps = n
  m_maxConnect : ∀ n, StatesInt lines "max_connect" n → cfg.m_maxConnect = n
  m_sleepMill : ∀ n, StatesInt lines "sleep_mill" n → cfg.m_sleepMill = n
  m_loglevel : ∀ n, StatesInt lines "log_level" n → cfg.m_loglevel = n

/-- A first call on a file with these lines returns an object that has what they say. -/
def RoundTrips (lines : List ConfigLine) (final : Bool) : Prop :=
  ∀ (files : FileSystem) (filePath : List UInt8) (statics : Statics), statics.m_cfg = none →
    files filePath = some (fileText lines final, .eof) →
    ∃ p cfg statics', Returns (readConfigFile files filePath statics) (p, statics') ∧
      statics'.objects p = some cfg ∧ cfg.Reads lines

variable {lines : List ConfigLine} {line : ConfigLine} {m_info : Info} {key : List UInt8}

theorem detab_separator {b : UInt8} (separator : isSeparator b = true) : detab b = space := by
  rw [isSeparator, Bool.or_eq_true, decide_eq_true_eq] at separator
  rw [detab]
  split
  · rfl
  · exact separator.resolve_right ‹_›

theorem detab_plain {b : UInt8} (plain : isTab b = false) : detab b = b := by
  rw [detab, plain]
  rfl

theorem map_detab_plain {s : List UInt8} (plain : ∀ b ∈ s, isTab b = false) : s.map detab = s := by
  rw [List.map_congr_left fun b member => detab_plain (plain b member), List.map_id']

theorem map_detab_separators {s : List UInt8} (separators : ∀ b ∈ s, isSeparator b = true) :
    ∀ b ∈ s.map detab, b = space := by
  intro b member
  obtain ⟨c, inside, rfl⟩ := List.mem_map.mp member
  exact detab_separator (separators c inside)

theorem separator_ne_newline {b : UInt8} (separator : isSeparator b = true) : b ≠ newline := by
  rintro rfl
  contradiction

namespace IsKey

theorem not_tab (isKey : IsKey key) (unbroken : 8 ∉ key) : ∀ b ∈ key, isTab b = false := by
  intro b member
  by_contra tab
  have white := isKey.2 b member
  simp only [Bool.not_eq_false, isTab, Bool.or_eq_true, decide_eq_true_eq] at tab
  rcases tab with ((rfl | rfl) | rfl) | rfl
  · contradiction
  · exact unbroken member
  · contradiction
  · contradiction

theorem not_mem (isKey : IsKey key) {b : UInt8} (white : Decimal.isSpace b = true) : b ∉ key := by
  intro member
  rw [isKey.2 b member] at white
  contradiction

end IsKey

namespace ConfigLine

theorem newline_free (wellFormed : line.WellFormed) : newline ∉ line.text := by
  cases line with
  | setting s gap tail =>
    obtain ⟨wf, _, gapped, trailing⟩ := wellFormed
    simp only [text, List.mem_append, not_or]
    refine ⟨⟨⟨wf.key.not_mem rfl, ?_⟩, ?_⟩, ?_⟩
    · exact fun member => separator_ne_newline (gapped _ member) rfl
    · exact fun member => (wf.plain _ member).1 rfl
    · exact fun member => separator_ne_newline (trailing _ member) rfl
  | blank run => exact fun member => (wellFormed _ member).1 rfl

/-- The line of a setting enters it; a blank line enters no key. -/
theorem readCommonConfig_line (wellFormed : line.WellFormed) (unbroken : line.Unbroken)
    (short : line.text.length < 2 ^ 32) (m_info : Info) (isKey : IsKey key) :
    readCommonConfig m_info (line.text.map detab) key = (line.valueOf key).or (m_info key) := by
  have fits : (line.text.map detab).length < npos := by
    rw [List.length_map, npos]
    omega
  cases line with
  | setting s gap tail =>
    obtain ⟨wf, parted, gapped, trailing⟩ := wellFormed
    have shape : (text (.setting s gap tail)).map detab =
        s.key ++ gap.map detab ++ s.value ++ tail.map detab := by
      rw [text, List.map_append, List.map_append, List.map_append,
        map_detab_plain (wf.key.not_tab unbroken), map_detab_plain fun b member => (wf.plain b member).2]
    rw [shape] at fits ⊢
    rw [readCommonConfig_setting (wf.key.not_mem rfl) (map_detab_separators gapped)
      (by simpa using parted) wf.first wf.last (map_detab_separators trailing) fits]
    simp only [Info.put, valueOf, Function.update_apply, eq_comm (a := key)]
    split
    · rfl
    · rfl
  | blank run =>
    obtain ⟨value, reads⟩ := readCommonConfig_key m_info fits
    have other : key ≠ ((text (.blank run)).map detab).takeWhile (· ≠ space) := by
      rintro rfl
      -- its first byte comes from the run, and is neither a separator nor anything else
      obtain ⟨b, rest, begins⟩ := List.exists_cons_of_ne_nil isKey.1
      have member : b ∈ ((text (.blank run)).map detab).takeWhile (· ≠ space) := by
        rw [begins]
        exact List.mem_cons_self ..
      have black := isKey.2 b member
      have noSpace : b ≠ space := by simpa using List.mem_takeWhile_imp member
      obtain ⟨c, inside, rfl⟩ := List.mem_map.mp ((List.takeWhile_subset _) member)
      by_cases separator : isSeparator c = true
      · exact noSpace (detab_separator separator)
      · have white := (wellFormed c inside).2.resolve_right separator
        have plain : isTab c = false := by simp [isSeparator] at separator; exact separator.2
        rw [detab_plain plain, white] at black
        contradiction
    rw [reads, Info.put, Function.update_of_ne other]
    rfl

end ConfigLine

/-- The lines are of the form the file may have, and each is short enough for the
index of `repaceTab`. -/
structure Readable (lines : List ConfigLine) : Prop where
  wellFormed : ∀ line ∈ lines, line.WellFormed
  unbroken : ∀ line ∈ lines, line.Unbroken
  short : ∀ line ∈ lines, line.text.length < 2 ^ 32

instance (lines : List ConfigLine) : Decidable (Readable lines) :=
  decidable_of_iff ((∀ line ∈ lines, line.WellFormed) ∧ (∀ line ∈ lines, line.Unbroken) ∧
      ∀ line ∈ lines, line.text.length < 2 ^ 32)
    ⟨fun ⟨wellFormed, unbroken, short⟩ => ⟨wellFormed, unbroken, short⟩,
      fun ⟨wellFormed, unbroken, short⟩ => ⟨wellFormed, unbroken, short⟩⟩

theorem readable_append {first second : List ConfigLine} :
    Readable (first ++ second) ↔ Readable first ∧ Readable second := by
  constructor
  · rintro ⟨wellFormed, unbroken, short⟩
    rw [List.forall_mem_append] at wellFormed unbroken short
    exact ⟨⟨wellFormed.1, unbroken.1, short.1⟩, ⟨wellFormed.2, unbroken.2, short.2⟩⟩
  · rintro ⟨⟨wellFormed, unbroken, short⟩, ⟨wellFormed', unbroken', short'⟩⟩
    constructor
    · exact List.forall_mem_append.mpr ⟨wellFormed, wellFormed'⟩
    · exact List.forall_mem_append.mpr ⟨unbroken, unbroken'⟩
    · exact List.forall_mem_append.mpr ⟨short, short'⟩

/-- Reading the lines one after the other leaves the last value of each key. -/
theorem foldl_lines (readable : Readable lines) (m_info : Info) (isKey : IsKey key) :
    (lines.map ConfigLine.text).foldl (fun m_info line => readCommonConfig m_info (line.map detab))
      m_info key = (lastValue lines key).or (m_info key) := by
  rw [List.foldl_map]
  refine foldl_last (fun line member m_info => ?_) m_info
  exact ConfigLine.readCommonConfig_line (readable.wellFormed line member)
    (readable.unbroken line member) (readable.short line member) m_info isKey

section Members

/-- Every key the constructor enters is one, and has its default. -/
theorem defaults_keys : ∀ entry ∈ serverDefaults,
    IsKey (chars entry.1) ∧ Configure.new (chars entry.1) = some (chars entry.2) := by
  decide +kernel

theorem touch_present {names : List String} (present : ∀ name ∈ names, (m_info (chars name)).isSome) :
    names.foldl Info.touch m_info = m_info := by
  induction names with
  | nil => rfl
  | cons name names ih =>
    have here : m_info.touch name = m_info := if_pos (present name (List.mem_cons_self ..))
    rw [List.foldl_cons, here]
    exact ih fun name member => present name (List.mem_cons_of_mem _ member)

/-- A numeral in the range of `int` is read back. -/
theorem toInt_stated {name : String} {n : Int} (stated : StatesInt lines name n)
    (gets : some (m_info.get name) = valueIn lines (chars name)) : toInt (m_info.get name) = n := by
  obtain ⟨⟨value, listed, numeral⟩, least, greatest⟩ := stated
  obtain rfl := Option.some.inj (gets.trans listed)
  rw [toInt, Bytes.cstr_of_nul_free _ numeral.nul_free]
  exact numeral.atoi least (by omega)

theorem toShort_stated {name : String} {n : Int} (stated : States lines name 0 65535 n)
    (gets : some (m_info.get name) = valueIn lines (chars name)) :
    ((toShort (m_info.get name)).toNat : Int) = n := by
  obtain ⟨numeral, least, greatest⟩ := stated
  have value := toInt_stated ⟨numeral, by omega, by omega⟩ gets
  rw [toShort, value]
  obtain ⟨k, rfl⟩ := Int.eq_ofNat_of_zero_le least
  have fits : k < 2 ^ 16 := by omega
  have same : ((k : Int) % 2 ^ 16).toNat = k := by omega
  rw [UInt16.ofInt, same]
  exact congrArg Nat.cast (Nat.mod_eq_of_lt fits)

theorem initMember_reads (keeps : ∀ key, IsKey key → m_info key = valueIn lines key) :
    (initMember m_info).Reads lines := by
  have known {name : String} (member : name ∈ serverDefaults.map Prod.fst) :
      some (m_info.get name) = valueIn lines (chars name) ∧ (m_info (chars name)).isSome := by
    obtain ⟨entry, inside, rfl⟩ := List.mem_map.mp member
    obtain ⟨isKey, default⟩ := defaults_keys entry inside
    have listed : (valueIn lines (chars entry.1)).isSome := by
      rw [valueIn, default, Option.isSome_or]
      simp
    obtain ⟨value, listed⟩ := Option.isSome_iff_exists.mp listed
    rw [Info.get, keeps _ isKey, listed]
    exact ⟨rfl, rfl⟩
  have gets {name : String} (member : name ∈ serverDefaults.map Prod.fst) := (known member).1
  constructor
  · intro key isKey
    have kept : (initMember m_info).m_info = m_info := touch_present fun name member => (known member).2
    rw [kept, keeps key isKey]
  · exact gets (by decide)
  · exact fun n stated => toShort_stated stated (gets (by decide))
  all_goals exact fun n stated => toInt_stated stated (gets (by decide))

end Members

theorem Readable.snoc_blanks (readable : Readable lines) (n : Nat) :
    Readable (lines ++ List.replicate n (.blank [])) := by
  have same : ∀ line ∈ List.replicate n (ConfigLine.blank []), line = .blank [] :=
    fun _ => List.eq_of_mem_replicate
  refine readable_append.mpr ⟨readable, ?_, ?_, ?_⟩
  · intro line member
    rw [same line member]
    decide
  · intro line member
    rw [same line member]
    decide
  · intro line member
    rw [same line member]
    decide

theorem lastValue_blanks (lines : List ConfigLine) (n : Nat) (key : List UInt8) :
    lastValue (lines ++ List.replicate n (.blank [])) key = lastValue lines key := by
  rw [lastValue, List.reverse_append, List.reverse_replicate, List.findSome?_append,
    List.findSome?_replicate_of_isNone rfl, Option.none_or]
  rfl

/-- The empty lines `getline` yields at the end of a file are blank lines. -/
theorem Readable.fileText (readable : Readable lines) (final : Bool) :
    ∃ padded, Readable padded ∧ padded ≠ [] ∧ fileText lines final = join (padded.map ConfigLine.text) ∧
      ∀ key, lastValue padded key = lastValue lines key := by
  obtain ⟨n, nonempty, same⟩ := join_padded (lines.map ConfigLine.text) final
  have texts : (lines ++ List.replicate n (ConfigLine.blank [])).map ConfigLine.text =
      lines.map ConfigLine.text ++ List.replicate n [] := by
    rw [List.map_append, List.map_replicate]
    rfl
  refine ⟨_, readable.snoc_blanks n, ?_, same.trans (congrArg join texts.symm), lastValue_blanks lines n⟩
  rw [← texts] at nonempty
  exact fun empty => nonempty (by rw [empty, List.map_nil])

/-- On a first call, whatever the lines, the loader returns with an object that has
what they say. -/
theorem round_trip (lines : List ConfigLine) (readable : Readable lines) (final : Bool) :
    RoundTrips lines final := by
  intro files filePath statics first present
  obtain ⟨padded, readable', nonempty, text, last⟩ := readable.fileText final
  have free : ∀ text ∈ padded.map ConfigLine.text, newline ∉ text :=
    List.forall_mem_map.mpr fun line member => ConfigLine.newline_free (readable'.wellFormed line member)
  obtain ⟨ios, returns⟩ := readLines_returns (mt List.map_eq_nil_iff.mp nonempty) free
    (List.forall_mem_map.mpr readable'.short) Configure.new
  rw [← text] at returns
  refine ⟨_, _, _, readConfigFile_returns first present returns, Statics.load_self .., ?_⟩
  apply initMember_reads
  intro key isKey
  have entered := foldl_lines readable' Configure.new isKey
  rwa [last] at entered

/-- A repeated key, a value with a space in it, line ends with a carriage return,
and a blank line. -/
def sampleFile : List ConfigLine :=
  [.setting ⟨chars "max_qps", chars "5"⟩ [9] [13], .blank [32],
    .setting ⟨chars "title", chars "a b"⟩ [32, 11] [13], .setting ⟨chars "max_qps", chars "-1"⟩ [32] []]

theorem round_trip_sampleFile :
    ∃ p cfg statics',
      Returns (readConfigFile (fun _ => some (fileText sampleFile true, .eof)) [] .init) (p, statics') ∧
      statics'.objects p = some cfg ∧ cfg.m_info (chars "title") = some (chars "a b") ∧
      cfg.m_maxQps = -1 := by
  obtain ⟨p, cfg, statics', returns, loaded, reads⟩ :=
    round_trip sampleFile (by decide +kernel) true (fun _ => some (fileText sampleFile true, .eof)) []
      .init rfl rfl
  have numeral : Decimal.Numeral (chars "-1") (-1) := .minus (.single 1)
  have listed : valueIn sampleFile (chars "max_qps") = some (chars "-1") := by decide +kernel
  have title : valueIn sampleFile (chars "title") = some (chars "a b") := by decide +kernel
  refine ⟨p, cfg, statics', returns, loaded, ?_, ?_⟩
  · rw [reads.m_info _ (by decide), title]
  · exact reads.m_maxQps (-1) ⟨⟨_, listed, numeral⟩, by decide, by decide⟩

/-- The key is `a`, a backspace, and `b`. -/
def brokenKey : ConfigLine := .setting ⟨[97, 8, 98], [49]⟩ [32] []

/-- The value is as long as the index of `repaceTab` can count. -/
def longLine : ConfigLine := .setting ⟨[97], List.replicate (2 ^ 32) 97⟩ [32] []

theorem longLine_wellFormed : longLine.WellFormed := by
  refine ⟨⟨by decide, ?_, ?_, ?_, ?_⟩, by decide, List.forall_mem_singleton.mpr rfl,
    List.forall_mem_nil _⟩
  · exact List.ne_nil_of_length_pos (by rw [List.length_replicate]; decide)
  · intro b member
    rw [List.eq_of_mem_replicate member]
    decide
  · intro first
    have member := List.mem_of_head? first
    exact absurd (List.eq_of_mem_replicate member) (by decide)
  · intro last
    have member := List.mem_of_getLast? last
    exact absurd (List.eq_of_mem_replicate member) (by decide)

theorem ConfigLine.value_length_le (s : Setting) (gap tail : List UInt8) :
    s.value.length ≤ (ConfigLine.setting s gap tail).text.length := by
  simp only [text, List.length_append]
  omega

theorem longLine_length : 2 ^ 32 ≤ longLine.text.length := by
  have value : (List.replicate (2 ^ 32) (97 : UInt8)).length = 2 ^ 32 := List.length_replicate
  exact Nat.le_trans (Nat.le_of_eq value.symm)
    (ConfigLine.value_length_le ⟨[97], List.replicate (2 ^ 32) 97⟩ [32] [])

theorem not_roundTrips_long (wellFormed : line.WellFormed) (long : 2 ^ 32 ≤ line.text.length) :
    ¬RoundTrips [line] false := by
  intro trips
  let files : FileSystem := fun _ => some (fileText [line] false, .eof)
  obtain ⟨p, cfg, statics, returns, _⟩ := trips files [] .init rfl rfl
  have present : files [] = some (join [line.text], .eof) := by simp [files, fileText]
  have free : ∀ text ∈ [line.text], newline ∉ text :=
    List.forall_mem_singleton.mpr (ConfigLine.newline_free wellFormed)
  have loops := readLines_diverges_long free ⟨_, List.mem_singleton_self _, long⟩ Configure.new
  exact returns.not_diverges (readConfigFile_diverges rfl present loops)

/-- Without one of the two conditions on the lines the loader does not do it: a
backspace cuts a key in two, and on a long line the loader never returns. -/
theorem not_roundTrips :
    (¬∀ (lines : List ConfigLine) (final : Bool), (∀ line ∈ lines, line.WellFormed) →
      (∀ line ∈ lines, line.text.length < 2 ^ 32) → RoundTrips lines final) ∧
    ¬∀ (lines : List ConfigLine) (final : Bool), (∀ line ∈ lines, line.WellFormed) →
      (∀ line ∈ lines, line.Unbroken) → RoundTrips lines final := by
  constructor
  · intro trips
    let files : FileSystem := fun _ => some (fileText [brokenKey] false, .eof)
    obtain ⟨p, cfg, statics, returns, loaded, reads⟩ := trips [brokenKey] false (by decide +kernel)
      (by decide +kernel) files [] .init rfl rfl
    obtain ⟨ios, ends⟩ := readLines_returns (show [brokenKey.text] ≠ [] by decide) (by decide +kernel)
      (by decide +kernel) Configure.new
    have actual := readConfigFile_returns (show Statics.init.m_cfg = none from rfl)
      (show files [] = some (join [brokenKey.text], .eof) from rfl) ends
    obtain ⟨rfl, rfl⟩ := Prod.mk.inj (returns.unique actual)
    obtain rfl := Option.some.inj ((Statics.load_self ..).symm.trans loaded)
    have missing :
        (initMember (readCommonConfig Configure.new (brokenKey.text.map detab))).m_info [97, 8, 98] ≠
          valueIn [brokenKey] [97, 8, 98] := by
      decide +kernel
    exact missing (reads.m_info [97, 8, 98] (by decide))
  · intro trips
    have wellFormed : ∀ line ∈ [longLine], line.WellFormed :=
      List.forall_mem_singleton.mpr longLine_wellFormed
    have unbroken : ∀ line ∈ [longLine], line.Unbroken := List.forall_mem_singleton.mpr (by decide)
    exact not_roundTrips_long longLine_wellFormed longLine_length
      (trips [longLine] false wellFormed unbroken)

end RemoteServer
