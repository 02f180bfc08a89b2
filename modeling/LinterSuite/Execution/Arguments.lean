import LinterSuite.Text.Utf8

/-!
# Arguments of a command

A command line and the environment share a limited space. File arguments that do not fit are split
into batches, in order, each as large as it can be.

## Main definitions

* `Arguments.cost`: the space an argument takes
* `Arguments.budget`: the space left for file arguments
* `Arguments.batches`: the files of each run

## Main results

* `Arguments.batches_nil`: no files are no batch
-/

namespace LinterSuite.Arguments

/-- Space kept free. -/
def headroom : Int := 2048

/-- The bytes of an argument with the byte that ends it and the pointer to it. -/
def cost (argument : String) : Nat := Text.utf8Size argument + 1 + 8

/-- The space of several arguments. -/
def totalCost (arguments : List String) : Nat := arguments.foldr (fun a total => cost a + total) 0

/-- The space of the variables of an environment. -/
def environmentCost (environment : List (String × String)) : Nat :=
  totalCost (environment.map fun v => v.1 ++ "=" ++ v.2)

/-- What a limit leaves for file arguments behind the fixed ones. -/
def budget (limit : Int) (fixed : List String) (environment : List (String × String)) : Int :=
  limit - (environmentCost environment + totalCost fixed : Nat) - headroom

/-- The batches of the rest of some files behind the begun batch `held` (reversed), which takes
`size` bytes. -/
def batchesFrom (budget : Int) (held : List String) (size : Nat) :
    List String → List (List String)
  | [] => if held.isEmpty then [] else [held.reverse]
  | file :: files =>
    if !held.isEmpty ∧ budget < (size + cost file : Nat) then
      held.reverse :: batchesFrom budget [file] (cost file) files
    else batchesFrom budget (file :: held) (size + cost file) files

/-- The files in order, cut where the next one would not fit. One that fits nowhere is alone. -/
def batches (budget : Int) (files : List String) : List (List String) :=
  batchesFrom budget [] 0 files

@[simp] theorem batches_nil (budget : Int) : batches budget [] = [] := rfl

end LinterSuite.Arguments
