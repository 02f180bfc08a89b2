import LinterSuite.Shell.Arithmetic
import LinterSuite.Shell.Interpreter
import LinterSuite.Shell.Printing
import LinterSuite.Shell.Reading
import LinterSuite.Shell.Tool

/-!
# Running shell scripts

Words are expanded into fields, redirections open files, and commands are run one after the other.
Every command hands on a state and the way it ended.

## Main definitions

* `Shell.Mark`, `Shell.fieldsOf`: expanded words and their fields
* `Shell.State.tool?`: the commands that need nothing but the state
* `Shell.run`: running a command
* `Shell.runScript`: running the script of a file
-/

namespace LinterSuite.Shell

/-! ### Fields -/

/-- A mark of an expanded word. -/
inductive Mark where
  /-- A character; one that is to be split ends the field if it is blank. -/
  | char (c : Char) (quoted split : Bool)
  /-- The end of a field. -/
  | cut
  /-- A field even if it is empty. -/
  | keep
  deriving DecidableEq, Repr

/-- The marks of a text. -/
def marks (cs : List Char) (quoted split : Bool) : List Mark := cs.map fun c => .char c quoted split

/-- The fields of some marks, behind a begun one (reversed), if there is one. -/
def fieldsFrom (begun : Option (List PatternChar)) : List Mark → List (List PatternChar)
  | [] => (begun.map List.reverse).toList
  | .char c quoted split :: ms =>
    if split ∧ (c = ' ' ∨ c = '\t' ∨ c = '\n') then
      (begun.map List.reverse).toList ++ fieldsFrom none ms
    else fieldsFrom (some ((c, quoted) :: begun.getD [])) ms
  | .cut :: ms => (begun.map List.reverse).toList ++ fieldsFrom none ms
  | .keep :: ms => fieldsFrom (some (begun.getD [])) ms

/-- The fields of some marks. -/
def fieldsOf (ms : List Mark) : List (List PatternChar) := fieldsFrom none ms

/-- The characters of some marks, all in one. -/
def joined (ms : List Mark) : List PatternChar :=
  ms.filterMap fun
    | .char c quoted _ => some (c, quoted)
    | .cut => some (' ', true)
    | .keep => none

/-- The text of a field. -/
def textOf (field : List PatternChar) : String := String.ofList (field.map (·.1))

/-- The arguments of a script, each as a field. -/
def argumentMarks (arguments : List String) (quoted : Bool) : List Mark :=
  let field (a : String) : List Mark :=
    (if quoted then [.keep] else []) ++ marks a.toList quoted (!quoted)
  (arguments.map field).intersperse [.cut] |>.flatten

/-- The marks of a value. -/
def valueMarks (value : String) (quoted : Bool) : List Mark :=
  (if quoted then [.keep] else []) ++ marks value.toList quoted (!quoted)

/-- The marks of a parameter. -/
def State.parameterMarks (s : State) (name : String) (otherwise : List Char) (quoted : Bool) :
    List Mark :=
  if name = "@" ∨ (name = "*" ∧ !quoted) then argumentMarks s.arguments quoted
  else
    let value := s.value name
    valueMarks (if value.isEmpty then String.ofList otherwise else value) quoted

/-! ### Tools -/

/-- The bytes of a line. -/
def lineBytes (text : String) : List UInt8 := Text.utf8 (text ++ "\n")

/-- A path as a script means it. -/
def State.path (s : State) (name : String) : Path := s.directory.join (Path.ofString name)

/-- The input of a tool: its files, or what is still to be read. -/
def State.inputOf (s : State) (files : List String) : List UInt8 × State :=
  if files.isEmpty then (s.input, { s with input := [] })
  else (files.flatMap fun f => (s.tree.read (s.path f)).toOption.getD [], s)

/-- The state after every file was given to a change of the tree; the status says whether all of
them could be changed. -/
def State.changeFiles (s : State) (change : FileTree → Path → Except FileError FileTree)
    (files : List String) : State :=
  files.foldl (fun s f => match change s.tree (s.path f) with
    | .ok tree => { s with tree }
    | .error _ => s.withStatus 1) (s.withStatus 0)

/-- Makes a directory with those above it. -/
def makeDirectory (t : FileTree) (p : Path) : Except FileError FileTree :=
  let (made, result) := t.makeDirs p
  result.map fun _ => made

/-- Creates a file or sets its time. -/
def touchFile (t : FileTree) (p : Path) : Except FileError FileTree :=
  if t.pathExists p then t.touch p t.clock else t.write p []

/-- Arguments without options. -/
def operands (args : List String) : List String := args.filter fun a => !a.startsWith "-"

/-- Arguments that are options. -/
def optionsOf (args : List String) : List String := args.filter fun a => a.startsWith "-"

/-- The state after writing with status zero. -/
def State.say (s : State) (io : Streams) (bytes : List UInt8) : Flow × State :=
  (.next, (s.put io.output bytes).withStatus 0)

/-- The state after a complaint about a line. -/
def State.complain (s : State) (io : Streams) (line : Nat) (text : String) (status : Nat) : State :=
  (s.put io.errors (lineBytes s!"{s.name}: {line}: {text}")).withStatus status

/-- The end of a script with the status that the arguments write, or else with the last one. -/
def State.leave (s : State) (io : Streams) (line : Nat) (name : String) (args : List String) :
    Flow × State :=
  match args with
  | [] => (.exit s.status, s)
  | text :: _ =>
    match natural? text with
    | some n => (.exit (n % 256), s)
    | none => (.exit 2, s.complain io line s!"{name}: Illegal number: {text}" 2)

/-- The status of a condition, and a complaint about what is no number in it. -/
def State.judge (s : State) (io : Streams) (line : Nat) (name : String) (args : List String) :
    State :=
  match condition? s.tree args with
  | some b => s.withStatus (if b then 0 else 1)
  | none =>
    match illegalNumber? args with
    | some text => s.complain io line s!"{name}: Illegal number: {text}" 2
    | none => s.withStatus 2

/-- The state after arguments were printed as a format says. It has no options; two dashes in front
of it mean nothing. -/
def State.print (s : State) (io : Streams) (line : Nat) (args : List String) : Flow × State :=
  match if args.head? = some "--" then args.tail else args with
  | [] => (.next, s.complain io line "printf: usage: printf format [arg ...]" 2)
  | format :: rest =>
    match format.toList with
    | '-' :: c :: _ =>
      if args.head? = some "--" then s.say io (printf format rest)
      else (.next, s.complain io line s!"printf: Illegal option -{c}" 2)
    | _ => s.say io (printf format rest)

/-- A variable set by a text with an equals sign. -/
def State.declare (s : State) (text : String) : State :=
  match Text.pieces '=' text.toList with
  | name :: v :: vs => s.assign (String.ofList name) (String.ofList (['='].intercalate (v :: vs)))
  | _ => s

/-- The directory that a script enters. -/
def State.enter (s : State) (name : String) : Option State :=
  match s.tree.realPath (s.path name) with
  | .ok p => if s.tree.isDir p then some { s with tree := { s.tree with cwd := p.parts } } else none
  | .error _ => none

/-- A command that needs nothing but the state. -/
def State.tool? (s : State) (io : Streams) (line : Nat) (name : String) (args : List String) :
    Option (Flow × State) :=
  let done (status : Nat) (s : State) : Option (Flow × State) := some (.next, s.withStatus status)
  let number : Nat := (args.head?.bind String.toNat?).getD 1
  match name with
  | ":" | "true" | "trap" | "umask" | "ulimit" => done 0 s
  | "false" => done 1 s
  | "echo" => some (s.say io (echo args))
  | "printf" => some (s.print io line args)
  | "pwd" => some (s.say io (lineBytes s.directory.toString))
  | "cd" => match s.enter (args.headD "/") with
    | some s => done 0 s
    | none => done 2 s
  | "exit" | "return" => some (s.leave io line name args)
  | "break" => some (.leave number false, s)
  | "continue" => some (.leave number true, s)
  | "shift" => done 0 { s with arguments := s.arguments.drop number }
  | "set" => done 0 (match args with
    | "--" :: rest => { s with arguments := rest }
    | _ => s)
  | "export" | "readonly" | "local" => done 0 (args.foldl State.declare s)
  | "unset" => done 0 { s with bindings := args.foldl Keyed.erase s.bindings }
  | "test" => some (.next, s.judge io line name args)
  | "[" => some (.next, s.judge io line name args.dropLast)
  | "sleep" => match args.head?.bind nanoseconds? with
    | some n => some ((s.withStatus 0).rest n)
    | none => done 1 s
  | "wait" => some ((s.withStatus 0).rest (max 0 (s.occupied - s.tree.clock)))
  | "kill" => match signalRequest? args with
    | some (signal, process) =>
      if process = toString processNumber then
        if signal = 0 then done 0 s else some (.killed signal, s)
      else done 1 s
    | none => done 2 s
  | "cat" =>
    let r := s.inputOf (operands args)
    some (r.2.say io r.1)
  | "wc" =>
    let files := operands args
    let r := s.inputOf files
    let names := if files.isEmpty then "" else " " ++ " ".intercalate files
    some (r.2.say io (lineBytes (countText (count (optionsOf args) r.1) ++ names)))
  | "tr" =>
    let r := s.inputOf []
    some (r.2.say io (transliterate args r.1))
  | "touch" => some (.next, s.changeFiles touchFile (operands args))
  | "rm" =>
    let s := s.changeFiles FileTree.remove (operands args)
    some (.next, if args.contains "-f" then s.withStatus 0 else s)
  | "mkdir" => some (.next, s.changeFiles makeDirectory (operands args))
  | _ => none

/-! ### Redirections -/

/-- The streams and the state after a file was opened, or a report of why it cannot be. -/
def openTarget (r : Redirection) (target : String) (io : Streams) (s : State) :
    Except String (Streams × State) :=
  let set (sink : Sink) : Streams :=
    if r.number = 2 then { io with errors := sink } else { io with output := sink }
  let p := s.path target
  match r.access with
  | .duplicate =>
    .ok (if target = "1" then set io.output else if target = "2" then set io.errors else io, s)
  | .read =>
    if target = "/dev/null" then .ok (io, { s with input := [] })
    else match s.tree.read p with
      | .ok bytes => .ok (io, { s with input := bytes })
      | .error _ => .error s!"cannot open {target}: No such file"
  | access =>
    if target = "/dev/null" then .ok (set .discard, s)
    else
      let old := if access = .append then (s.tree.read p).toOption else none
      match old with
      | some _ => .ok (set (.file p), s)
      | none => match s.tree.write p [] with
        | .ok tree => .ok (set (.file p), { s with tree })
        | .error .isDirectory => .error s!"cannot create {target}: Is a directory"
        | .error _ => .error s!"cannot create {target}: Directory nonexistent"

/-! ### Commands -/

mutual

/-- The marks of a word. The fuel bounds the depth of commands. -/
def expand : (fuel : Nat) → Streams → Word → State → List Mark × State
  | 0, _, _, s => ([], s)
  | _ + 1, _, [], s => ([], s)
  | fuel + 1, io, piece :: rest, s =>
    let (ms, s) := match piece with
      | .text cs quoted => ((if quoted then [.keep] else []) ++ marks cs quoted false, s)
      | .parameter name otherwise quoted => (s.parameterMarks name otherwise quoted, s)
      | .length name quoted => (valueMarks (toString (s.value name).length) quoted, s)
      | .output script quoted =>
        let (text, s) := substitute fuel io script s
        (valueMarks text quoted, s)
      | .arithmetic expression quoted =>
        match quotedPieces? (expression.length + 2) (expression ++ ['"']) with
        | none => ([], s)
        | some (word, _) =>
          let (ms, s) := expand fuel io word s
          let number (name : String) : Int := (integer? (s.value name)).getD 0
          match arithmetic? number ((joined ms).map (·.1)) with
          | some n => (valueMarks (toString n) quoted, s)
          | none => ([], s)
    let (more, s) := expand fuel io rest s
    (ms ++ more, s)

/-- What a script writes, without the line breaks at its end. -/
def substitute : (fuel : Nat) → Streams → List Char → State → String × State
  | 0, _, _, s => ("", s)
  | fuel + 1, io, script, s =>
    match read? script with
    | none => ("", s)
    | some body =>
      let held := s.captured
      let r := run fuel { io with output := .capture } body { s with captured := [] }
      let bytes := r.2.captured.reverse.flatten
      let s := (s.afterShell r).2
      let trimmed := ((bytes.reverse).dropWhile (· == 10)).reverse
      (Text.ofUtf8Lossy trimmed, { s with captured := held })

/-- The fields of some words; patterns among them are replaced by the names that match. -/
def expandAll : (fuel : Nat) → Streams → List Word → State → List String × State
  | 0, _, _, s => ([], s)
  | _ + 1, _, [], s => ([], s)
  | fuel + 1, io, w :: ws, s =>
    let (ms, s) := expand fuel io w s
    let names (field : List PatternChar) : List String :=
      if isPattern field then
        let found := s.matchingNames field
        if found.isEmpty then [textOf field] else found
      else [textOf field]
    let here := (fieldsOf ms).flatMap names
    let (more, s) := expandAll fuel io ws s
    (here ++ more, s)

/-- The streams and the state after some redirections. -/
def redirectAll : (fuel : Nat) → Streams → List Redirection → State →
    Except (String × State) (Streams × State)
  | 0, io, _, s => .ok (io, s)
  | _ + 1, io, [], s => .ok (io, s)
  | fuel + 1, io, r :: rs, s =>
    let (ms, s) := expand fuel io r.target s
    match openTarget r (textOf (joined ms)) io s with
    | .error report => .error (report, s)
    | .ok (io, s) => redirectAll fuel io rs s

/-- The state after some variables were set. -/
def assignAll : (fuel : Nat) → Streams → List (String × Word) → State → State
  | 0, _, _, s => s
  | _ + 1, _, [], s => s
  | fuel + 1, io, (name, w) :: rest, s =>
    let (ms, s) := expand fuel io w s
    assignAll fuel io rest (s.assign name (textOf (joined ms)))

/-- Runs a command by its name: another command in place of the script, a tool, or a script. -/
def invoke : (fuel : Nat) → Streams → (line : Nat) → String → List String → State → Flow × State
  | 0, _, _, _, _, s => (.overdue, s)
  | fuel + 1, io, line, name, args, s =>
    if name = "exec" then
      match args with
      | [] => (.next, s.withStatus 0)
      | name :: args =>
        match invoke fuel io line name args s with
        | (.next, s) => (.exit s.status, s)
        | r => r
    else match s.tool? io line name args with
      | some r => r
      | none =>
        let p := s.path name
        let missing := s.complain io line s!"{name}: not found" 127
        if !name.toList.contains '/' || !s.tree.isRunnable p then (.next, missing)
        else match s.tree.read p with
          | .error _ => (.next, missing)
          | .ok content =>
            match read? (Text.ofUtf8Lossy content).toList with
            | none => (.next, s.complain io line "Syntax error" 2)
            | some body =>
              s.afterShell (match run fuel io body { s with name, arguments := args } with
                | (.next, s) => (.exit s.status, s)
                | r => r)

/-- Runs a command for each of some words. -/
def forAll : (fuel : Nat) → Streams → String → Script → List String → State → Flow × State
  | 0, _, _, _, _, s => (.overdue, s)
  | _ + 1, _, _, _, [], s => (.next, s)
  | fuel + 1, io, name, body, w :: ws, s =>
    match run fuel io body (s.assign name w) with
    | (.next, s) | (.leave 1 true, s) => forAll fuel io name body ws s
    | (.leave 1 false, s) => (.next, s)
    | (.leave (n + 1) again, s) => (.leave n again, s)
    | r => r

/-- Runs the first of some cases with a pattern that matches. -/
def choose : (fuel : Nat) → Streams → List Char → List (List Word × Script) → State → Flow × State
  | 0, _, _, _, s => (.overdue, s)
  | _ + 1, _, _, [], s => (.next, s.withStatus 0)
  | fuel + 1, io, subject, ([], _) :: rest, s => choose fuel io subject rest s
  | fuel + 1, io, subject, (w :: ws, body) :: rest, s =>
    let (ms, s) := expand fuel io w s
    if matchesPattern (joined ms) subject then run fuel io body s
    else if ws.isEmpty then choose fuel io subject rest s
    else choose fuel io subject ((ws, body) :: rest) s

/-- Runs a command. The fuel bounds the depth of commands and the turns of loops; a command that
takes more goes on for ever. -/
def run : (fuel : Nat) → Streams → Script → State → Flow × State
  | 0, _, _, s => (.overdue, s)
  | fuel + 1, io, script, s =>
    match script with
    | .nothing => (.next, s)
    | .simple line assignments words redirs =>
      let (fields, s) := expandAll fuel io words s
      match redirectAll fuel io redirs s with
      | .error (report, s) => (.next, s.complain io line report 2)
      | .ok (io, s) =>
        match fields with
        | [] => (.next, assignAll fuel io assignments (s.withStatus 0))
        | name :: args =>
          let bindings := s.bindings
          let (flow, s) := invoke fuel io line name args (assignAll fuel io assignments s)
          (flow, if assignments.isEmpty then s else { s with bindings })
    | .pipe left right =>
      let held := s.captured
      let r := run fuel { io with output := .capture } left { s with captured := [] }
      match s.afterShell r with
      | (.overdue, s) => (.overdue, { s with captured := held })
      | (_, mid) =>
        let input := mid.captured.reverse.flatten
        let r := run fuel io right { mid with captured := held, input }
        let (flow, s') := s.afterShell r
        (flow, { s' with input := s.input })
    | .both left right =>
      match run fuel io left s with
      | (.next, s) => if s.status = 0 then run fuel io right s else (.next, s)
      | r => r
    | .either left right =>
      match run fuel io left s with
      | (.next, s) => if s.status = 0 then (.next, s) else run fuel io right s
      | r => r
    | .invert body =>
      match run fuel io body s with
      | (.next, s) => (.next, s.withStatus (if s.status = 0 then 1 else 0))
      | r => r
    | .sequence left right =>
      match run fuel io left s with
      | (.next, s) => run fuel io right s
      | r => r
    | .background body =>
      let r := s.afterShell (run fuel io body { s with deadline := none, input := [] })
      let after := r.2
      (.next, { after with
        tree := { after.tree with clock := s.tree.clock }, deadline := s.deadline
        input := s.input, occupied := max s.occupied after.tree.clock, status := 0 })
    | .forEach name words body =>
      match words with
      | none => forAll fuel io name body s.arguments (s.withStatus 0)
      | some words =>
        let (fields, s) := expandAll fuel io words s
        forAll fuel io name body fields (s.withStatus 0)
    | .loop goal condition body =>
      match run fuel io condition s with
      | (.next, s) =>
        if (s.status == 0) != goal then (.next, s.withStatus 0)
        else match run fuel io body s with
          | (.next, s) | (.leave 1 true, s) => run fuel io (.loop goal condition body) s
          | (.leave 1 false, s) => (.next, s)
          | (.leave (n + 1) again, s) => (.leave n again, s)
          | r => r
      | r => r
    | .branch condition yes no =>
      match run fuel io condition s with
      | (.next, s) => if s.status = 0 then run fuel io yes s else run fuel io no (s.withStatus 0)
      | r => r
    | .select subject branches =>
      let (ms, s) := expand fuel io subject s
      choose fuel io ((joined ms).map (·.1)) branches s
    | .group apart body redirs =>
      match redirectAll fuel io redirs s with
      | .error (report, s) => (.next, s.complain io 1 report 2)
      | .ok (io, s) => if apart then s.afterShell (run fuel io body s) else run fuel io body s

end

/-- How deep commands may be and how often loops may turn. -/
def runFuel : Nat := 20000

/-- The state after the script of a file was run, and how it ended; a fault of grammar is a status
of two. -/
def runScript (content : List UInt8) (s : State) : Flow × State :=
  let io : Streams := ⟨.output, .output⟩
  match read? (Text.ofUtf8Lossy content).toList with
  | none => (.exit 2, s.complain io 1 "Syntax error" 2)
  | some body =>
    match run runFuel io body s with
    | (.next, s) | (.leave .., s) => (.exit s.status, s)
    | r => r

end LinterSuite.Shell
