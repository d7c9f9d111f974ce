import Cobol.Proofs.Encoding.Utf8
import Cobol.Proofs.Normalization
import Cobol.Proofs.Text.Line

/-!
# Programs in files

A program may be run from a file instead of from its lines. The file holds bytes: its characters are
decoded, its line ends are made uniform, and it is cut at every line boundary. If the bytes are
those of lines joined by line ends, the lines come back, except that an empty line at the end of the
file is not told from the end of the line before it. An empty line is no part of a program, so the
two ways to run it have the same result (`runFile_result`).

## Shape decisions

* The line ends are a list of three, and the law is about any of them. A line boundary of another
  kind in a line would cut it, so the lines are taken without any (`IsOneLine`).
* The bytes are those of UTF-8. For other character sets there is no law, because what is read in
  them need not be what was written.
-/

namespace Cobol

open Text Sentence

/-- The bytes of a file with the given lines. -/
def fileOf (lineEnd : Text) (lines : List Text) : List UInt8 :=
  Utf8.encode (join lineEnd lines)

/-- The lines of a file come back, but for an empty line at its end. -/
theorem sourceLines_fileOf {lineEnd : Text} (hend : lineEnd ∈ lineEnds) {source : List Text}
    (h : ∀ line ∈ source, IsOneLine line) :
    sourceLines (Charset.utf8.decode (fileOf lineEnd source)) =
      if source.getLast? = some [] then source.dropLast else source := by
  rw [sourceLines, Charset.decode, fileOf, Utf8.decodeReplacing_encode, unifyNewlines_join hend h,
    lines_join h]

/-- What is lost of the lines of a file is not part of the program. -/
theorem normalize_sourceLines_fileOf {lineEnd : Text} (hend : lineEnd ∈ lineEnds)
    {source : List Text} (h : ∀ line ∈ source, IsOneLine line) :
    normalize (sourceLines (Charset.utf8.decode (fileOf lineEnd source))) = normalize source := by
  rw [sourceLines_fileOf hend h]
  split
  · rename_i hlast
    obtain ⟨front, rfl⟩ := List.getLast?_eq_some_iff.1 hlast
    have hempty : normalize [[]] = [] := normalize_cons_of_nil rfl []
    rw [List.dropLast_concat, normalize_append, hempty, List.append_nil]
  · rfl

/-- The usual character set never refuses a file, whatever else the platform knows of. -/
theorem readSource_utf8 {options : RunOptions} (h : options.encoding = .name "utf-8".toList)
    (p : Path) (bytes : List UInt8) :
    readSource options p bytes = .ok (sourceLines (Charset.utf8.decode bytes)) := by
  have hname : Charset.ofName? "utf-8".toList = some .utf8 := by decide
  rw [readSource, h]
  dsimp only
  rw [if_neg (by decide), Charset.decodeNamed, hname]

/-- The result without the account of where the program came from. -/
def RunResult.withoutSource (r : RunResult) : RunResult :=
  { r with sourceInfo := none }

/-- **Running a file is running its lines.** For lines without line boundaries, and a file that
holds their bytes with any of the three line ends between them, running the file and running the
lines have the same result: the same name and output, or the same error. -/
theorem runFile_result {source : List Text} (h : ∀ line ∈ source, IsOneLine line)
    {lineEnd : Text} (hend : lineEnd ∈ lineEnds) {options : RunOptions}
    (hencoding : options.encoding = .name "utf-8".toList) {tree : FileTree} {p : Path}
    (hfile : tree.find? p = .ok (some (.file (fileOf lineEnd source)))) :
    (runFile options tree p).result.map RunResult.withoutSource =
      (runLines options source).result := by
  have hrun := (runLines_congr (normalize_sourceLines_fileOf hend h)).2 options
  rw [runFile, hfile]
  dsimp only
  rw [readSource_utf8 hencoding]
  dsimp only
  rw [hrun]
  unfold runLines
  dsimp only
  cases (Session.run options.limits source { input := options.input }).output <;> rfl

/-- A program with a byte order mark, characters of every width and empty lines, and a folder with
the file of it. -/
def wideSource : List Text :=
  ["\uFEFF", "", "PROGRAM-ID. É.", "", "PROCEDURE DIVISION.", "DISPLAY 'é€😀'.", ""].map
    String.toList

/-- The folder. -/
def wideTree : FileTree where
  nodes := [(["a.cob".toList], .file (fileOf ['\r'] wideSource))]

/-- A file with a byte order mark, characters of up to four bytes and carriage returns between its
lines. -/
theorem runFile_result_wide :
    (∀ line ∈ wideSource, IsOneLine line) ∧
      wideTree.find? (Path.ofText "a.cob".toList) =
        .ok (some (.file (fileOf ['\r'] wideSource))) ∧
      (runLines {} wideSource).result.map RunResult.output = .ok ["é€😀".toList] ∧
      (runFile { includeSourceInfo := true } wideTree (Path.ofText "a.cob".toList)).result.map
          RunResult.withoutSource =
        (runLines { includeSourceInfo := true } wideSource).result := by
  have hlines : ∀ line ∈ wideSource, IsOneLine line := by decide +kernel
  have hfile : wideTree.find? (Path.ofText "a.cob".toList) =
      .ok (some (.file (fileOf ['\r'] wideSource))) := by rfl
  exact ⟨hlines, hfile, by decide +kernel, runFile_result hlines (by decide) rfl hfile⟩

end Cobol
