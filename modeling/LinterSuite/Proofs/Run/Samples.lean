import LinterSuite.Run
import Mathlib

/-!
# Small runs

Runs of few linters on few files, on which general statements about runs are tried.

Mathlib is imported whole: runs are evaluated down to the bytes and characters of their texts, and
the equations of these are spread over it.

## Main definitions

* `Sample.linter`: a linter of a name and a command, on all files below the root
* `Sample.config`: a configuration of such linters
* `Sample.machine`: a machine on which every process ends well
* `Sample.tree`, `Sample.treeWithEntry`, `Sample.treeWithCache`: a tree with one file, without or
  with a cache
* `Sample.setup`, `Sample.options`: one job after the other, with digests that tell nothing apart
* `Sample.passing`, `Sample.passingOnly`: runners of which all commands pass, or one
* `Sample.digest`: a digest that tells one linter from others
-/

namespace LinterSuite.Sample

/-- A linter of a name and a command, on all files below the root. -/
def linter (name command : String) : LinterSettings :=
  { name, command, options := [], workDir := none, includes := [], excludes := [], formats := []
    checkHash := false, excludeSubmodules := false, singleFile := false, timeout := none }

/-- A configuration of some linters that keeps its cache, if any, in a directory of the root. -/
def config (cache : Bool) (linters : List LinterSettings) : Config :=
  { root := ⟨.root, []⟩
    globals := { excludes := [], cache, cacheDir := "c", jobs := none }
    linters, sources := [] }

/-- A user with a home directory, among others of whom nothing is known. -/
def homes : Homes := ⟨"/h", []⟩

/-- Surroundings without a search path. -/
def environment : Environment :=
  { homes, searchPath := "", bindings := [], argumentLimit := 4096 }

/-- A machine on which every process ends well and writes nothing. -/
def machine : Machine (FileTree × Unit) where
  tree := Prod.fst
  isStopping _ := false
  spawn _ s := (.exited 0 [], s)

/-- Runs on that machine, one job after the other. -/
def setup : RunSetup Unit :=
  { digest := fun _ => "", homes, runner := machine.runner environment, schedule := inOrder }

/-- What is asked of a run with a store. -/
def options (store : Option CacheStore) : RunOptions := { jobs := none, usualJobs := 1, store }

/-- A tree with one file at its root, which can be run. -/
def tree : FileTree :=
  { root := .dir 0 [("x", .file { content := [], mtime := 1, executable := true })]
    cwd := [], clock := 2 }

/-- The tree with an entry of these bytes in the directory of the cache. All linters share it, since
digests tell nothing apart. -/
def treeWithEntry (bytes : List UInt8) : FileTree :=
  { root := .dir 0 [("x", .file { content := [], mtime := 1, executable := true }),
      ("c", .dir 0 [(".json", .file { content := bytes, mtime := 1, executable := false })])]
    cwd := [], clock := 2 }

/-- The tree with an empty directory for a cache. -/
def treeWithCache : FileTree :=
  { root := .dir 0 [("x", .file { content := [], mtime := 1, executable := true }),
      ("c", .dir 0 [])]
    cwd := [], clock := 2 }

/-- A runner whose commands all pass and write nothing. -/
def passing : Runner Unit := fun _ world => (⟨[], [], .ok ⟨0, ""⟩⟩, world)

/-- A runner of which only one command passes. -/
def passingOnly (command : String) : Runner Unit := fun call world =>
  (⟨[], [], .ok ⟨if call.command = command then 0 else 1, ""⟩⟩, world)

/-- A digest that tells the linter `a` from others. -/
def digest : Digest := fun bytes => if bytes = Text.utf8 "a" then "a" else ""

/-- Runs with these, in the order of a schedule. -/
def passingSetup (schedule : Nat → List Turn) : RunSetup Unit :=
  { digest, homes, runner := passing, schedule }

end LinterSuite.Sample
