import RemoteServer.Configure.Loading

/-! When the loader returns: its loop waits for the end of the file, which a stream
that ends in an error never reports, and its scan of a line for the end of the line,
which an index of 32 bits may never reach. -/
namespace RemoteServer.Configure
open InputStream Loop

variable {r t : Reading} {m_info : Info} {bytes filePath : List UInt8} {lines : List (List UInt8)}
  {ending : Ending} {files : FileSystem} {statics : Statics} {fuel : Nat}

theorem readLine_some (reads : readLine fuel r = some t) :
    t.ios = r.ios.getline.2 ∧ ∃ line, repaceTab r.ios.getline.1 fuel = some line := by
  obtain ⟨line, scans, rfl⟩ := Option.map_eq_some_iff.mp reads
  exact ⟨rfl, line, scans⟩

theorem readLines_diverges_error (bytes : List UInt8) (m_info : Info) :
    Diverges (readLines ⟨.start bytes .error, m_info⟩) := by
  refine diverges (fun r : Reading => r.ios.ending = .error ∧ r.ios.eofbit = false) ?_ ?_ ⟨rfl, rfl⟩
  · rintro r ⟨_, clear⟩
    simp only [clear, Bool.not_false]
  · rintro r fuel t ⟨broken, clear⟩ reads
    rw [(readLine_some reads).1]
    exact getline_error broken clear

/-- The loop never gets past a line that is too long. -/
theorem readLines_diverges_long (free : ∀ line ∈ lines, newline ∉ line)
    (long : ∃ line ∈ lines, 2 ^ 32 ≤ line.length) (m_info : Info) :
    Diverges (readLines ⟨.start (join lines) .eof, m_info⟩) := by
  refine diverges (fun r : Reading => ∃ lines, (∀ line ∈ lines, newline ∉ line) ∧
    (∃ line ∈ lines, 2 ^ 32 ≤ line.length) ∧ r.ios = .start (join lines) .eof) ?_ ?_
    ⟨lines, free, long, rfl⟩
  · rintro r ⟨lines, _, _, ios⟩
    rw [ios]
    rfl
  · rintro r fuel t ⟨lines, free, ⟨long, member, length⟩, ios⟩ reads
    obtain ⟨next, line', scans⟩ := readLine_some reads
    rw [ios] at next scans
    cases lines with
    | nil => contradiction
    | cons line lines =>
      rw [List.forall_mem_cons] at free
      have passed : long ≠ (InputStream.start (join (line :: lines)) .eof).getline.1 := by
        intro same
        rw [← same, repaceTab_diverges length fuel] at scans
        contradiction
      cases lines with
      | nil =>
        obtain ⟨after, last, _⟩ := getline_last free.1
        have alone : join [line] = line := by simp [join]
        rw [alone, last] at passed
        exact absurd (List.mem_singleton.mp member) passed
      | cons second lines =>
        have first := getline_line free.1 (join (second :: lines)) .eof
        rw [join_cons, first] at passed next
        exact ⟨_, free.2, ⟨long, (List.mem_cons.mp member).resolve_left passed, length⟩, next⟩

theorem readLines_returns_iff (bytes : List UInt8) (ending : Ending) (m_info : Info) :
    (∃ r, Returns (readLines ⟨.start bytes ending, m_info⟩) r) ↔
      ending = .eof ∧ ∀ line ∈ pieces bytes, line.length < 2 ^ 32 := by
  constructor
  · rintro ⟨r, returns⟩
    cases ending with
    | error => exact absurd (readLines_diverges_error bytes m_info) returns.not_diverges
    | eof =>
      refine ⟨rfl, fun line member => ?_⟩
      by_contra long
      have loops := readLines_diverges_long (pieces_free bytes)
        ⟨line, member, Nat.le_of_not_lt long⟩ m_info
      rw [join_pieces] at loops
      exact returns.not_diverges loops
  · rintro ⟨rfl, short⟩
    obtain ⟨ios, returns⟩ := readLines_returns (pieces_ne_nil bytes) (pieces_free bytes) short m_info
    rw [join_pieces] at returns
    exact ⟨_, returns⟩

/-- The loop on the stream that was opened ends after finitely many iterations, and
the function returns. -/
structure Terminates (files : FileSystem) (filePath : List UInt8) (statics : Statics)
    (bytes : List UInt8) (ending : Ending) : Prop where
  loop : ∃ r, Returns (readLines ⟨.start bytes ending, Configure.new⟩) r
  call : ∃ result, Returns (readConfigFile files filePath statics) result

/-- A first call on a file that can be opened terminates exactly when the stream ends
in the end of the file and has no line of 2^32 bytes or more. -/
theorem loader_terminates_iff (first : statics.m_cfg = none)
    (present : files filePath = some (bytes, ending)) :
    Terminates files filePath statics bytes ending ↔
      ending = .eof ∧ ∀ line ∈ pieces bytes, line.length < 2 ^ 32 := by
  rw [← readLines_returns_iff bytes ending Configure.new]
  constructor
  · exact Terminates.loop
  · rintro ⟨r, returns⟩
    exact ⟨⟨r, returns⟩, _, readConfigFile_returns first present returns⟩

def shortFile : List UInt8 := chars "host here\n\nmax_qps 7"

theorem loader_terminates_iff_shortFile :
    Terminates (fun _ => some (shortFile, .eof)) [] .init shortFile .eof :=
  (loader_terminates_iff rfl rfl).mpr ⟨rfl, by decide⟩

/-- A path that names a directory: it opens, and the first read fails. -/
theorem not_terminates :
    ¬∀ (files : FileSystem) (filePath : List UInt8) (statics : Statics) (bytes : List UInt8)
      (ending : Ending), statics.m_cfg = none → files filePath = some (bytes, ending) →
        Terminates files filePath statics bytes ending := by
  intro terminates
  obtain ⟨_, result, returns⟩ :=
    terminates (fun _ => some ([], .error)) [] .init [] .error rfl rfl
  exact returns.not_diverges
    (readConfigFile_diverges rfl rfl (readLines_diverges_error [] Configure.new))

end RemoteServer.Configure
