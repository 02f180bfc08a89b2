import LinterSuite.Json.Reading
import LinterSuite.Json.Writing
import LinterSuite.Outcome

/-!
# Records of runs

What the cache remembers about the last run of a linter, and its text in an entry file.

## Main definitions

* `RunRecord`: a record
* `RunRecord.text`: the text of an entry
* `RunRecord.ofValue?`: the record of a document

## Main results

* `RunRecord.failed_succeeded`: a failed run is recorded as one
-/

namespace LinterSuite

/-- What is remembered about the last run of a linter. -/
structure RunRecord where
  /-- The linter. -/
  name : String
  /-- The digest of its invocation. -/
  fingerprint : String
  /-- The digest of the paths of its files. -/
  filesDigest : String
  /-- The latest time of its files. -/
  latestMtime : Int
  /-- The digest of the contents of its files, if contents are compared. -/
  contentDigest : Option String
  succeeded : Bool
  deriving DecidableEq, Repr

namespace RunRecord

/-- The record of a run that failed, or whose files cannot be read. -/
def failed (name fingerprint : String) : RunRecord :=
  { name, fingerprint, filesDigest := "", latestMtime := 0, contentDigest := none,
    succeeded := false }

/-- The text of an entry. -/
def text (r : RunRecord) : String :=
  Json.block [("name", Json.string r.name), ("fingerprint", Json.string r.fingerprint),
    ("files_digest", Json.string r.filesDigest), ("latest_mtime_ns", toString r.latestMtime),
    ("content_digest", Json.stringOrNull r.contentDigest),
    ("succeeded", Json.boolean r.succeeded)]

/-- The digest of contents that a document gives. One that is no text is like none. -/
def contentDigest? : Value → Option (Option String)
  | .brokenString => some none
  | v => Value.optional (·.toText.toOption) v

/-- The record of a document; members of other names are passed over. -/
def ofValue? : Value → Option RunRecord
  | .table t => do
    return {
      name := ← Table.member t "name" none (·.toText.toOption)
      fingerprint := ← Table.member t "fingerprint" none (·.toText.toOption)
      filesDigest := ← Table.member t "files_digest" none (·.toText.toOption)
      latestMtime := ← Table.member t "latest_mtime_ns" (some 0) (·.toInteger.toOption)
      contentDigest := ← Table.member t "content_digest" (some none) contentDigest?
      succeeded := ← Table.member t "succeeded" (some false) (·.toBoolean.toOption) }
  | _ => none

@[simp] theorem failed_succeeded (name fingerprint : String) :
    (failed name fingerprint).succeeded = false := rfl

end RunRecord

end LinterSuite
