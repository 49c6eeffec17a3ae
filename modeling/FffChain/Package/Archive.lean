/- FffChain/Package/Archive
   source: libraries/package/package.cpp, lines 17-141
   digest: The package archive: Archiver::put writes a 304-byte header and the
   file's bytes, ~Archiver an all-zero header; an empty file sets failbit on
   the output, so the stream ends with its header. Dearchiver::extract reads
   the files back, up to and including the first empty file. -/

import Mathlib

set_option autoImplicit false
set_option relaxedAutoImplicit false

namespace FffChain.Package.Archive

/-- A char of the archive stream. -/
abbrev Byte := UInt8

/-- A file given to Archiver::put: its name in the archive and the bytes of its
source file. -/
structure ArchiveFile where
  name : List Byte
  contents : List Byte
deriving DecidableEq, Repr

/-! ## The header and what Archiver writes -/

/-- ArchiveHeader_sizeof_version_1: sizeof(detail::ArchiveHeader) under
#pragma pack(4). -/
def archiveHeaderSize : Nat := 304

/-- The four bytes of an int on the little-endian targets the code is built
for: put writes the size through an int pointer. -/
def intBytes (v : Nat) : List Byte :=
  [UInt8.ofNat (v % 256), UInt8.ofNat (v / 256 % 256), UInt8.ofNat (v / 65536 % 256),
    UInt8.ofNat (v / 16777216 % 256)]

/-- The int read back from little-endian bytes, as a natural number: it is
negative when it reaches 2^31. -/
def intValue (bytes : List Byte) : Nat :=
  bytes.foldr (fun b v => b.toNat + 256 * v) 0

/-- The name field: snprintf(name, 256, "%s", file_name.c_str()) copies the
name up to its first NUL, at most 255 bytes, and a NUL; memset zeroed the rest. -/
def nameField (fileName : List Byte) : List Byte :=
  (fileName.takeWhile (· != 0)).take 255 ++
    List.replicate (256 - ((fileName.takeWhile (· != 0)).take 255).length) 0

/-- The header put writes: version 1, three reserved bytes, the name field, the size as an int at the start of the
8-byte size field, and 36 reserved bytes. -/
def archiveHeader (fileName : List Byte) (fileSize : Nat) : List Byte :=
  [1, 0, 0, 0] ++ nameField fileName ++ (intBytes fileSize ++ List.replicate 4 0) ++
    List.replicate 36 0

/-- The Archiver's output stream: the bytes written and whether failbit is
set, after which every write is dropped. -/
structure Output where
  bytes : List Byte
  failed : Bool

/-- _out.write: the bytes go out unless failbit is set. -/
def Output.write (out : Output) (data : List Byte) : Output :=
  if out.failed then out else ⟨out.bytes ++ data, false⟩

/-- _out << is.rdbuf(): the source file's bytes go out; inserting none sets
failbit. -/
def Output.insertBuffer (out : Output) (contents : List Byte) : Output :=
  if out.failed then out else if contents = [] then ⟨out.bytes, true⟩ else ⟨out.bytes ++ contents, false⟩

/-- Archiver::put: the header, then the bytes of the source file. file_size is
cast to int, and intBytes writes only its low 32 bits. -/
def put (out : Output) (file : ArchiveFile) : Output :=
  (out.write (archiveHeader file.name file.contents.length)).insertBuffer file.contents

/-- ~Archiver: an all-zero header ends the archive. -/
def terminator : List Byte := List.replicate archiveHeaderSize 0

/-- The stream an Archiver writes on a fresh output for the files put in
order, then destroyed. -/
def archive (files : List ArchiveFile) : List Byte :=
  ((files.foldl put ⟨[], false⟩).write terminator).bytes

/-- What reaches the stream: headers and bytes up to the first empty file, whose header is written last, or the
terminator when no file is empty. -/
def written : List ArchiveFile → List Byte
  | [] => terminator
  | file :: files =>
    archiveHeader file.name file.contents.length ++ if file.contents = [] then [] else file.contents ++ written files

/-! ## What Dearchiver::extract does -/

/-- _in.read into a header memset to zero: the next 304 bytes, or what is left
followed by zeros. -/
def readHeader (input : List Byte) : List Byte :=
  input.take archiveHeaderSize ++ List.replicate (archiveHeaderSize - input.length) 0

/-- header.version. -/
def headerVersion (header : List Byte) : Byte := header.headD 0

/-- header.name as a C string: up to its NUL. The model stops at the end of
the header, past which strlen would read other memory. -/
def headerName (header : List Byte) : List Byte := (header.drop 4).takeWhile (· != 0)

/-- The int at the start of header.size. -/
def headerSize (header : List Byte) : Nat := intValue ((header.drop 260).take 4)

/-- What one pass of the loop of Dearchiver::extract does. -/
inductive Pass where
  /-- The header read has a version other than 1 or an empty name: break. -/
  | stop
  /-- The file is opened, so created empty, and the size read is negative:
  FC_THROW("Unexpected size in header"). -/
  | badSize (name : List Byte)
  /-- The size read is more than the input left: std::copy_n dereferences the
  end-of-stream iterator, which is undefined behaviour. -/
  | readPastEnd (name : List Byte)
  /-- The file is written; the input left follows. -/
  | wrote (file : ArchiveFile) (rest : List Byte)
deriving DecidableEq, Repr

/-- One pass of the loop. copy_n over an istreambuf_iterator consumes one byte fewer than it copies, none when it
copies none; the one-byte read after it consumes one more. -/
def extractPass (input : List Byte) : Pass :=
  let header := readHeader input
  if headerVersion header != 1 || (headerName header).isEmpty then .stop
  else if 2 ^ 31 ≤ headerSize header then .badSize (headerName header)
  else
    let rest := input.drop archiveHeaderSize
    if rest.length < headerSize header then .readPastEnd (headerName header)
    else .wrote ⟨headerName header, rest.take (headerSize header)⟩ (rest.drop (max (headerSize header) 1))

/-- How Dearchiver::extract ends: it returns true, throws "Unexpected size in
header", or reads past the end of the stream. -/
inductive Outcome where
  | returned
  | threw
  | readPastEnd
deriving DecidableEq, Repr

/-- What extract leaves: the files written, in order, and how it ended (a file whose copy reads past the end is
left out); directories and files are taken to open. -/
structure Extracted where
  written : List ArchiveFile
  outcome : Outcome
deriving DecidableEq, Repr

/-- The loop of Dearchiver::extract, for at most `fuel` passes. -/
def extractLoop : Nat → List Byte → Extracted
  | 0, _ => ⟨[], .returned⟩
  | fuel + 1, input =>
    match extractPass input with
    | .stop => ⟨[], .returned⟩
    | .badSize name => ⟨[⟨name, []⟩], .threw⟩
    | .readPastEnd _ => ⟨[], .readPastEnd⟩
    | .wrote file rest =>
      let later := extractLoop fuel rest
      ⟨file :: later.written, later.outcome⟩

/-- Dearchiver::extract over the whole input; one pass more than the input has bytes is enough. -/
def extract (input : List Byte) : Extracted := extractLoop (input.length + 1) input

/-! ## Passes -/

@[simp] theorem headerVersion_readHeader (input : List Byte) :
    headerVersion (readHeader input) = input.headD 0 := by
  cases input <;> rfl

theorem extractPass_stop {input : List Byte} (version : input.headD 0 ≠ 1) :
    extractPass input = .stop := by
  simp only [extractPass, headerVersion_readHeader, bne_iff_ne.mpr version, Bool.true_or,
    ↓reduceIte]

theorem extractPass_wrote {input rest : List Byte} {file : ArchiveFile}
    (pass : extractPass input = .wrote file rest) :
    input.headD 0 = 1 ∧ headerSize (readHeader input) < 2 ^ 31 ∧
      file = ⟨headerName (readHeader input),
        (input.drop archiveHeaderSize).take (headerSize (readHeader input))⟩ ∧
      rest = (input.drop archiveHeaderSize).drop (max (headerSize (readHeader input)) 1) := by
  simp only [extractPass, headerVersion_readHeader] at pass
  split_ifs at pass with stop big
  cases pass
  simp only [Bool.or_eq_true, bne_iff_ne, ne_eq, not_or, not_not] at stop
  exact ⟨stop.1, by omega, rfl, rfl⟩

theorem extractPass_consumes {input rest : List Byte} {file : ArchiveFile}
    (pass : extractPass input = .wrote file rest) : rest.length < input.length := by
  obtain ⟨version, -, -, rfl⟩ := extractPass_wrote pass
  cases input with
  | nil => exact absurd version (by decide)
  | cons b input => simp only [List.length_drop, List.length_cons]; omega

theorem extractLoop_fuel (input : List Byte) (fuel fuel' : Nat) (enough : input.length < fuel)
    (enough' : input.length < fuel') : extractLoop fuel input = extractLoop fuel' input := by
  induction fuel generalizing input fuel' with
  | zero => omega
  | succ fuel ih =>
    obtain ⟨fuel', rfl⟩ : ∃ f, fuel' = f + 1 := ⟨fuel' - 1, by omega⟩
    simp only [extractLoop]
    split
    next => rfl
    next => rfl
    next => rfl
    next file rest pass =>
      have shorter := extractPass_consumes pass
      rw [ih rest fuel' (by omega) (by omega)]

theorem extractLoop_enough (input : List Byte) (fuel : Nat) (enough : input.length < fuel) :
    extractLoop fuel input = extract input :=
  extractLoop_fuel input fuel _ enough (Nat.lt_succ_self _)

theorem extractLoop_nil (fuel : Nat) : extractLoop fuel [] = ⟨[], .returned⟩ := by
  cases fuel with
  | zero => rfl
  | succ fuel => rw [extractLoop, extractPass_stop (by decide)]

/-! ## Reading back what Archiver wrote -/

theorem length_nameField (fileName : List Byte) : (nameField fileName).length = 256 := by
  simp only [nameField, List.length_append, List.length_replicate, List.length_take]
  omega

theorem length_archiveHeader (fileName : List Byte) (fileSize : Nat) :
    (archiveHeader fileName fileSize).length = archiveHeaderSize := by
  simp [archiveHeader, length_nameField, intBytes, archiveHeaderSize]

private theorem toNat_ofNat_mod (n : Nat) : (UInt8.ofNat (n % 256)).toNat = n % 256 :=
  UInt8.toNat_ofNat_of_lt (Nat.mod_lt _ (by decide))

theorem intValue_intBytes (v : Nat) : intValue (intBytes v) = v % 2 ^ 32 := by
  simp only [intValue, intBytes, List.foldr_cons, List.foldr_nil, toNat_ofNat_mod]
  omega

theorem readHeader_archiveHeader (fileName : List Byte) (fileSize : Nat) (tail : List Byte) :
    readHeader (archiveHeader fileName fileSize ++ tail) = archiveHeader fileName fileSize := by
  have length := length_archiveHeader fileName fileSize
  simp only [readHeader, List.take_left' length, List.length_append, length]
  simp

theorem nameField_eq (fileName : List Byte) :
    nameField fileName = (fileName.takeWhile (· != 0)).take 255 ++
      0 :: List.replicate (255 - ((fileName.takeWhile (· != 0)).take 255).length) 0 := by
  have padded : 256 - ((fileName.takeWhile (· != 0)).take 255).length =
      (255 - ((fileName.takeWhile (· != 0)).take 255).length) + 1 := by
    simp only [List.length_take]; omega
  rw [nameField, padded, List.replicate_succ]

theorem headerName_archiveHeader (fileName : List Byte) (fileSize : Nat) :
    headerName (archiveHeader fileName fileSize) = (fileName.takeWhile (· != 0)).take 255 := by
  have named : ∀ b ∈ (fileName.takeWhile (· != 0)).take 255, (b != 0) = true :=
    fun b mem => by simpa using List.mem_takeWhile_imp (List.mem_of_mem_take mem)
  rw [headerName, archiveHeader, List.append_assoc, List.append_assoc,
    List.drop_left' (show ([1, 0, 0, 0] : List Byte).length = 4 from rfl), nameField_eq,
    List.append_assoc, List.takeWhile_append_of_pos named]
  simp

theorem headerSize_archiveHeader (fileName : List Byte) (fileSize : Nat) :
    headerSize (archiveHeader fileName fileSize) = fileSize % 2 ^ 32 := by
  have length : ([1, 0, 0, 0] ++ nameField fileName).length = 260 := by
    simp [length_nameField]
  rw [headerSize, archiveHeader, List.append_assoc, List.drop_left' length, List.append_assoc,
    List.take_left' (by simp [intBytes]), intValue_intBytes]

/-- A file the round trip is about: a non-empty name of at most 255 bytes with
no NUL, and fewer than 2^31 bytes. -/
def ArchiveFile.WellFormed (file : ArchiveFile) : Prop :=
  file.name ≠ [] ∧ file.name.length ≤ 255 ∧ (0 : Byte) ∉ file.name ∧
    file.contents.length < 2 ^ 31

instance (file : ArchiveFile) : Decidable file.WellFormed :=
  inferInstanceAs (Decidable (_ ∧ _ ∧ _ ∧ _))

/-- Reading back a well-formed file: its header, then its bytes. After an empty
file the one-byte read takes the first byte of what follows. -/
theorem extractPass_header {file : ArchiveFile} (wf : file.WellFormed) (tail : List Byte) :
    extractPass (archiveHeader file.name file.contents.length ++ (file.contents ++ tail)) =
      .wrote file (if file.contents = [] then tail.drop 1 else tail) := by
  obtain ⟨fileName, contents⟩ := file
  obtain ⟨named, short, noNul, small⟩ : fileName ≠ [] ∧ fileName.length ≤ 255 ∧
    (0 : Byte) ∉ fileName ∧ contents.length < 2 ^ 31 := wf
  have name : (fileName.takeWhile (· != 0)).take 255 = fileName := by
    rw [List.takeWhile_eq_self_iff.mpr fun b mem => bne_iff_ne.mpr fun h => noNul (by
      rw [← h]; exact mem), List.take_of_length_le short]
  have nonempty : fileName.isEmpty = false :=
    Bool.eq_false_iff.mpr fun h => named (List.isEmpty_iff.mp h)
  have size : contents.length % 2 ^ 32 = contents.length := Nat.mod_eq_of_lt (by omega)
  have length := length_archiveHeader fileName contents.length
  have version : headerVersion (archiveHeader fileName contents.length) = 1 := rfl
  rw [extractPass]
  simp only [readHeader_archiveHeader, headerName_archiveHeader, headerSize_archiveHeader, name,
    size, List.drop_left' length, List.take_left, nonempty, version, bne_self_eq_false,
    Bool.false_or, Bool.false_eq_true, ↓reduceIte, List.length_append,
    Nat.not_le.mpr (by omega : contents.length < 2 ^ 31), Nat.not_lt.mpr (Nat.le_add_right _ _)]
  split_ifs with empty
  · subst empty; rfl
  · rw [Nat.max_eq_left (List.length_pos.mpr empty), List.drop_left]

/-- The files Dearchiver::extract gets back from an archive of `files`: all of
them, up to and including the first empty one. -/
def extractedFiles : List ArchiveFile → List ArchiveFile
  | [] => []
  | file :: files => if file.contents = [] then [file] else file :: extractedFiles files

theorem foldl_put_failed (files : List ArchiveFile) (bytes : List Byte) :
    files.foldl put ⟨bytes, true⟩ = ⟨bytes, true⟩ := by
  induction files with
  | nil => rfl
  | cons file files ih => exact ih

theorem archive_from (files : List ArchiveFile) (bytes : List Byte) :
    ((files.foldl put ⟨bytes, false⟩).write terminator).bytes = bytes ++ written files := by
  induction files generalizing bytes with
  | nil => rfl
  | cons file files ih =>
    rw [List.foldl_cons]
    by_cases empty : file.contents = []
    · rw [show put ⟨bytes, false⟩ file = ⟨bytes ++ archiveHeader file.name file.contents.length, true⟩ by
        simp [put, Output.write, Output.insertBuffer, empty], foldl_put_failed]
      simp [Output.write, written, empty]
    · rw [show put ⟨bytes, false⟩ file = ⟨bytes ++ (archiveHeader file.name file.contents.length ++ file.contents), false⟩ by
        simp [put, Output.write, Output.insertBuffer, empty], ih]
      simp [written, empty]

theorem archive_eq (files : List ArchiveFile) : archive files = written files := archive_from files []

theorem extractLoop_archive (files : List ArchiveFile) (wf : ∀ file ∈ files, file.WellFormed)
    (fuel : Nat) (enough : (extractedFiles files).length < fuel) :
    extractLoop fuel (archive files) = ⟨extractedFiles files, .returned⟩ := by
  rw [archive_eq]
  obtain ⟨fuel, rfl⟩ : ∃ f, fuel = f + 1 := ⟨fuel - 1, by omega⟩
  induction files generalizing fuel with
  | nil => simp [extractLoop, written, extractedFiles, extractPass_stop (show terminator.headD 0 ≠ 1 by decide)]
  | cons file files ih =>
    have wf₁ := wf file (List.mem_cons_self _ _)
    have rest := fun f mem => wf f (List.mem_cons_of_mem _ mem)
    rw [written, extractedFiles]
    by_cases empty : file.contents = []
    · have pass := extractPass_header wf₁ []
      simp only [empty, if_true, List.append_nil, List.drop_nil, List.length_nil] at pass ⊢
      rw [extractLoop, pass]
      dsimp only
      rw [extractLoop_nil]
    · rw [if_neg empty, if_neg empty, extractLoop, extractPass_header wf₁, if_neg empty]
      rw [extractedFiles, if_neg empty, List.length_cons] at enough
      obtain ⟨fuel, rfl⟩ : ∃ f, fuel = f + 1 := ⟨fuel - 1, by omega⟩
      dsimp only
      rw [ih rest fuel (by omega)]

theorem length_le_archive (files : List ArchiveFile) : (extractedFiles files).length ≤ (archive files).length := by
  rw [archive_eq]
  induction files with
  | nil => simp [extractedFiles]
  | cons file files ih =>
    have header : (archiveHeader file.name file.contents.length).length = 304 :=
      length_archiveHeader file.name file.contents.length
    rw [written, extractedFiles]
    split_ifs <;> simp only [List.length_append, List.length_cons, List.length_nil, header] <;> omega

/-- An empty file that is not the last: put sets failbit on the output, so
the stream ends with the file's header, and extract writes that file only. -/
theorem extract_archive_afterEmpty (file next : ArchiveFile) (wf : file.WellFormed) (empty : file.contents = []) :
    archive [file, next] = archiveHeader file.name 0 ∧ extract (archive [file, next]) = ⟨[file], .returned⟩ := by
  have alone : archive [file] = archiveHeader file.name 0 := by simp [archive_eq, written, empty]
  have stream : archive [file, next] = archiveHeader file.name 0 := by simp [archive_eq, written, empty]
  refine ⟨stream, ?_⟩
  rw [stream, ← alone, extract, extractLoop_archive [file] (by simpa using wf) _
    (Nat.lt_succ_of_le (length_le_archive [file]))]
  simp [extractedFiles, empty]

theorem extract_archive_afterEmpty_twoFiles :
    ArchiveFile.WellFormed ⟨[97], []⟩ ∧ ArchiveFile.contents ⟨[97], []⟩ = [] ∧
      archive [⟨[97], []⟩, ⟨[98], [65]⟩] = archiveHeader [97] 0 ∧
      extract (archive [⟨[97], []⟩, ⟨[98], [65]⟩]) = ⟨[⟨[97], []⟩], .returned⟩ :=
  ⟨by decide, rfl, extract_archive_afterEmpty ⟨[97], []⟩ ⟨[98], [65]⟩ (by decide) rfl⟩

end FffChain.Package.Archive
