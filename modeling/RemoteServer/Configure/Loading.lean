import RemoteServer.Configure.Loader

/-! What the functions of the loader compute. -/
namespace RemoteServer.Configure
open InputStream Loop StdString

/-- What becomes of a character in `repaceTab`. -/
def detab (b : UInt8) : UInt8 := if isTab b then space else b

theorem repaceChar_at (front : List UInt8) (b : UInt8) (rest : List UInt8)
    (short : front.length < 2 ^ 32) :
    repaceChar (UInt32.ofNat front.length, front ++ b :: rest) =
      (UInt32.ofNat (front ++ [detab b]).length, (front ++ [detab b]) ++ rest) := by
  have index : (UInt32.ofNat front.length).toNat = front.length := Nat.mod_eq_of_lt short
  have after : UInt32.ofNat front.length + 1 = UInt32.ofNat (front ++ [detab b]).length := by
    rw [List.length_append, UInt32.ofNat_add]
    rfl
  have current : (front ++ b :: rest).getD front.length 0 = b := by simp [List.getD_eq_getElem?_getD]
  rw [repaceChar, index, after, current]
  by_cases tab : isTab b = true
  · simp [detab, tab]
  · simp [detab, tab]

theorem repaceTab_returns {line : List UInt8} (short : line.length < 2 ^ 32) :
    Returns (repaceTab line) (line.map detab) := by
  have scan (front rest : List UInt8) (short : front.length + rest.length < 2 ^ 32) :
      ∃ i, Returns (Loop.run (fun s => s.1.toNat < s.2.length) (fun _ s => some (repaceChar s)) ·
        (UInt32.ofNat front.length, front ++ rest)) (i, front ++ rest.map detab) := by
    have index : (UInt32.ofNat front.length).toNat = front.length := Nat.mod_eq_of_lt (by omega)
    induction rest generalizing front with
    | nil =>
      refine ⟨_, returns_done ?_⟩
      simp [index]
    | cons b rest ih =>
      rw [List.length_cons] at short
      have length : (front ++ [detab b]).length = front.length + 1 := by simp
      obtain ⟨i, returns⟩ := ih (front ++ [detab b]) (by omega) (Nat.mod_eq_of_lt (by omega))
      refine ⟨i, returns_next ?_ ?_ (t := repaceChar (UInt32.ofNat front.length, front ++ b :: rest)) ?_⟩
      · simp [index]
      · exact .pure _
      · rw [repaceChar_at front b rest (by omega)]
        simpa using returns
  obtain ⟨i, returns⟩ := scan [] line (by simpa using short)
  exact returns.map Prod.snd

theorem repaceTab_diverges {line : List UInt8} (long : 2 ^ 32 ≤ line.length) :
    Diverges (repaceTab line) := by
  have loops : Diverges (Loop.run (fun s : UInt32 × List UInt8 => decide (s.1.toNat < s.2.length))
      (fun _ s => some (repaceChar s)) · (0, line)) := by
    refine diverges (fun s => 2 ^ 32 ≤ s.2.length) ?_ ?_ long
    · intro s long
      exact decide_eq_true (Nat.lt_of_lt_of_le (UInt32.toNat_lt s.1) long)
    · rintro ⟨i, str⟩ _ t long next
      obtain rfl := Option.some.inj next
      simp only [repaceChar]
      split
      · rwa [List.length_set]
      · exact long
  exact fun fuel => congrArg (Option.map Prod.snd) (loops fuel)

section Trim
variable {str front value back : List UInt8}

theorem trim_eq (fits : str.length < npos) :
    trim str = (str.rdropWhile (· = space)).dropWhile (· = space) := by
  have shorter : (str.rdropWhile (· = space)).length < npos :=
    Nat.lt_of_le_of_lt (List.rdropWhile_prefix ..).length_le fits
  rw [trim, erase_trailing fits, erase_leading shorter]

/-- Spaces around a value that has none at its ends are taken off. -/
theorem trim_padded (leading : ∀ b ∈ front, b = space) (trailing : ∀ b ∈ back, b = space)
    (first : value.head? ≠ some space) (last : value.getLast? ≠ some space)
    (fits : (front ++ value ++ back).length < npos) : trim (front ++ value ++ back) = value := by
  have leading' : ∀ b ∈ front, decide (b = space) = true := by simpa using leading
  have trailing' : ∀ b ∈ back.reverse, decide (b = space) = true := by simpa using trailing
  have ends : (front ++ value ++ back).rdropWhile (· = space) =
      (front ++ value).rdropWhile (· = space) := by
    rw [List.rdropWhile, List.reverse_append, List.dropWhile_append_of_pos trailing', ← List.rdropWhile]
  rw [trim_eq fits, ends]
  cases value with
  | nil => rw [List.append_nil, List.rdropWhile_eq_nil_iff.mpr leading', List.dropWhile_nil]
  | cons b rest =>
    have kept : (front ++ b :: rest).rdropWhile (· = space) = front ++ b :: rest := by
      rw [List.rdropWhile_eq_self_iff]
      intro nonempty isSpace
      refine last ?_
      rw [List.getLast_append_of_ne_nil _ (List.cons_ne_nil b rest)] at isSpace
      rw [List.getLast?_eq_some_getLast (List.cons_ne_nil b rest), of_decide_eq_true isSpace]
    have other : ¬decide (b = space) = true := by simpa using first
    rw [kept, List.dropWhile_append_of_pos leading']
    exact List.dropWhile_cons_of_neg other

theorem trim_unspaced (unspaced : space ∉ str) (fits : str.length < npos) : trim str = str := by
  have padded : trim ([] ++ str ++ []) = str := by
    refine trim_padded (List.forall_mem_nil _) (List.forall_mem_nil _) ?_ ?_ (by simpa using fits)
    · exact fun first => unspaced (List.mem_of_head? first)
    · exact fun last => unspaced (List.mem_of_getLast? last)
  rwa [List.nil_append, List.append_nil] at padded

end Trim

section Line
variable {m_info : Info} {line key gap value tail : List UInt8}

/-- The key of a line is what comes before its first space. -/
theorem readCommonConfig_key (m_info : Info) (fits : line.length < npos) :
    ∃ value, readCommonConfig m_info line = m_info.put (line.takeWhile (· ≠ space)) value := by
  have unspaced : space ∉ line.takeWhile (· ≠ space) := by
    intro member
    simpa using List.mem_takeWhile_imp member
  have shorter : (line.takeWhile (· ≠ space)).length < npos :=
    Nat.lt_of_le_of_lt (List.takeWhile_prefix _).length_le fits
  refine ⟨trim (substr line (next (findFirstOf space line)) npos), ?_⟩
  rw [readCommonConfig, substr_before fits, trim_unspaced unspaced shorter]

/-- A line without a space is its own key and, as `npos + 1` is 0, its own value. -/
theorem readCommonConfig_bare (m_info : Info) (unspaced : space ∉ line) (fits : line.length < npos) :
    readCommonConfig m_info line = m_info.put line line := by
  rw [readCommonConfig, substr_before fits, substr_whole fits unspaced, takeWhile_ne unspaced,
    trim_unspaced unspaced fits]

theorem readCommonConfig_setting (unspaced : space ∉ key) (gapped : ∀ b ∈ gap, b = space)
    (parted : gap ≠ []) (first : value.head? ≠ some space) (last : value.getLast? ≠ some space)
    (trailing : ∀ b ∈ tail, b = space) (fits : (key ++ gap ++ value ++ tail).length < npos) :
    readCommonConfig m_info (key ++ gap ++ value ++ tail) = m_info.put key value := by
  obtain ⟨b, gap, rfl⟩ := List.exists_cons_of_ne_nil parted
  obtain rfl := gapped b (List.mem_cons_self ..)
  have line : key ++ space :: gap ++ value ++ tail = key ++ space :: (gap ++ value ++ tail) := by simp
  rw [line] at fits ⊢
  have found : space ∈ key ++ space :: (gap ++ value ++ tail) := by simp
  have sizes := fits
  simp only [List.length_append, List.length_cons] at sizes
  have trimmed : trim (gap ++ value ++ tail) = value := by
    refine trim_padded (fun b member => gapped b (List.mem_cons_of_mem _ member)) trailing first last ?_
    simp only [List.length_append]
    omega
  rw [readCommonConfig, substr_before fits, substr_after fits found, takeWhile_ne_append unspaced,
    dropWhile_ne_append unspaced, List.tail_cons, trim_unspaced unspaced (by omega), trimmed]

end Line

/-- When every line enters a value for the key or leaves it, the last value stays. -/
theorem foldl_last {α : Type} {lines : List α} {enters : α → Option (List UInt8)}
    {read : Info → α → Info} {key : List UInt8}
    (each : ∀ line ∈ lines, ∀ m_info : Info, read m_info line key = (enters line).or (m_info key))
    (m_info : Info) :
    lines.foldl read m_info key = (lines.reverse.findSome? enters).or (m_info key) := by
  induction lines using List.reverseRecOn with
  | nil => rfl
  | append_singleton lines line ih =>
    have before := ih fun line member => each line (List.mem_append_left _ member)
    rw [List.foldl_append, List.foldl_cons, List.foldl_nil, each line (by simp), before,
      List.reverse_append, List.reverse_singleton, List.singleton_append, List.findSome?_cons]
    cases enters line with
    | none => rfl
    | some value => rfl

theorem readLine_returns {ios ios' : InputStream} {line : List UInt8} (reads : ios.getline = (line, ios'))
    (short : line.length < 2 ^ 32) (m_info : Info) :
    Returns (readLine · ⟨ios, m_info⟩) ⟨ios', readCommonConfig m_info (line.map detab)⟩ := by
  simp only [readLine, reads]
  exact (repaceTab_returns short).map _

theorem readLines_returns {lines : List (List UInt8)} (nonempty : lines ≠ [])
    (free : ∀ line ∈ lines, newline ∉ line) (short : ∀ line ∈ lines, line.length < 2 ^ 32)
    (m_info : Info) :
    ∃ ios, Returns (readLines ⟨.start (join lines) .eof, m_info⟩)
      ⟨ios, lines.foldl (fun m_info line => readCommonConfig m_info (line.map detab)) m_info⟩ := by
  induction lines generalizing m_info with
  | nil => contradiction
  | cons line lines ih =>
    have free' := free line (List.mem_cons_self ..)
    have short' := short line (List.mem_cons_self ..)
    cases lines with
    | nil =>
      obtain ⟨ios, reads, ended⟩ := getline_last free'
      have last : join [line] = line := by simp [join]
      rw [last]
      refine ⟨ios, returns_next rfl (readLine_returns reads short' m_info) (returns_done ?_)⟩
      simp [ended]
    | cons next lines =>
      have reads := getline_line free' (join (next :: lines)) .eof
      obtain ⟨ios, returns⟩ := ih (List.cons_ne_nil _ _)
        (fun line member => free line (List.mem_cons_of_mem _ member))
        (fun line member => short line (List.mem_cons_of_mem _ member))
        (readCommonConfig m_info (line.map detab))
      rw [join_cons, List.foldl_cons]
      exact ⟨ios, returns_next rfl (readLine_returns reads short' m_info) returns⟩

section Call
variable {files : FileSystem} {filePath bytes : List UInt8} {statics : Statics} {ending : Ending} {r : Reading}

theorem readConfigFile_loop (first : statics.m_cfg = none)
    (present : files filePath = some (bytes, ending)) (fuel : Nat) :
    readConfigFile files filePath statics fuel =
      (readLines ⟨.start bytes ending, Configure.new⟩ fuel).map fun r =>
        (statics.nextObject,
          { statics.load (initMember r.m_info) with m_confFilePath := filePath }) := by
  simp only [readConfigFile, first, present]

theorem readConfigFile_returns (first : statics.m_cfg = none)
    (present : files filePath = some (bytes, ending))
    (returns : Returns (readLines ⟨.start bytes ending, Configure.new⟩) r) :
    Returns (readConfigFile files filePath statics)
      (statics.nextObject, { statics.load (initMember r.m_info) with m_confFilePath := filePath }) := by
  have loaded := returns.map fun r : Reading =>
    (statics.nextObject, { statics.load (initMember r.m_info) with m_confFilePath := filePath })
  obtain ⟨enough, yields⟩ := loaded
  refine ⟨enough, fun fuel le => ?_⟩
  rw [readConfigFile_loop first present]
  exact yields fuel le

theorem readConfigFile_diverges (first : statics.m_cfg = none)
    (present : files filePath = some (bytes, ending))
    (loops : Diverges (readLines ⟨.start bytes ending, Configure.new⟩)) :
    Diverges (readConfigFile files filePath statics) := by
  intro fuel
  rw [readConfigFile_loop first present, loops fuel, Option.map_none]

end Call

end RemoteServer.Configure
