import KaflTargets.Lib.Scanf
import KaflTargets.Libnyx

/-!
# The `vmcall` tool (`vmcall/src/vmcall.c`)

The tool is one executable with several names. `cmd_dispatch` looks at the
token at `optind`, `cmd_vmcall` dispatches on the next token. Handlers take the
argument vector and read the global `optind`.
-/

namespace KaflTargets

open CString

/-! ## Argument vectors -/

/-- `argv[i]`, the terminating `NULL` included; further on there is nothing to
read. -/
def argvAt (argv : List Bytes) (i : Nat) : Guest (Option Bytes) :=
  if i ≤ argv.length then pure argv[i]? else Prog.stop .outOfBounds

/-- The arguments of the loops `for (int i = optind; i < argc; i++)`. -/
def operands (argv : List Bytes) : Guest (List Bytes) := do
  let optind ← Prog.gets (·.optind)
  pure (argv.drop optind)

/-- The calls of `getopt` up to -1: the options it returned and the argument
vector it leaves. -/
def getoptAll (optstring : Bytes) (argv : List Bytes) : Guest (List GetoptItem × List Bytes) :=
  ⟨fun w =>
    let scan := w.env.getopt.scan optstring (argv.drop w.optind)
    (.ok (scan.items, argv.take w.optind ++ scan.args), { w with optind := w.optind + scan.ind })⟩

/-! ## Handlers -/

/-- The result of a `size_t` addition with an `ssize_t` operand. -/
def sizeAdd (written : Nat) (n : Int) : Nat := ((written + n) % 2 ^ 64).toNat

/-- The conversion of a `size_t` to `int`. -/
def toInt (n : Nat) : Int := (n : Int).bmod (2 ^ 32)

/-- The file loop of `cmd_hcat` and the returns behind it. -/
def hcatFiles (fuel : Nat) : List Bytes → Nat → Guest Int
  | [], written => pure (if written > 0 then 0 else 1)
  | a :: as, written => do
    match ← fopen a with
    | none => pure (toInt written)
    | some f =>
      let n ← hprintfFromFile fuel f
      hcatFiles fuel as (sizeAdd written n)

/-- `cmd_hcat`. -/
def cmdHcat (fuel : Nat) (argv : List Bytes) : Guest Int := do
  let env ← Prog.gets (·.env)
  let n ← if env.isatty then pure 0 else hprintfFromFile fuel env.stdin
  let files ← operands argv
  hcatFiles fuel files (sizeAdd 0 n)

/-- `cmd_habort`. -/
def cmdHabort (fuel : Nat) (argv : List Bytes) : Guest Int := do
  let optind ← Prog.gets (·.optind)
  match ← argvAt argv optind with
  | some msg => habortMsg fuel msg
  | none => habortMsg fuel (ascii "vmcall/habort called.")
  pure 0

/-- `cmd_hpanic`. -/
def cmdHpanic (fuel : Nat) (argv : List Bytes) : Guest Int := do
  let optind ← Prog.gets (·.optind)
  match ← argvAt argv optind with
  | some msg =>
    let _ ← hypercall fuel (.panicExtended msg)
    pure 0
  | none =>
    let _ ← hypercall fuel (.panic 0)
    pure 0

/-- The option loop of `cmd_hget`: file mode and target directory, or nothing
on an option it does not know. -/
def hgetOptions : List GetoptItem → Nat × Option Bytes → Option (Nat × Option Bytes)
  | [], st => some st
  | .opt c arg :: items, (fmode, dstRoot) =>
    if c = 120 then hgetOptions items (fmode ||| 0o111, dstRoot)
    else if c = 111 then hgetOptions items (fmode, arg)
    else none
  | .bad :: _, _ => none

/-- The file loop of `cmd_hget`. -/
def hgetFiles (fuel fmode : Nat) : List Bytes → Guest Int
  | [] => pure 0
  | a :: as => do
    let ret ← hgetFile fuel a fmode
    if ret ≠ 0 then pure ret else hgetFiles fuel fmode as

/-- `cmd_hget`. -/
def cmdHget (fuel : Nat) (argv : List Bytes) : Guest Int := do
  let (items, argv) ← getoptAll (ascii "xo:") argv
  match hgetOptions items (0o664, none) with
  | none => pure (-EINVAL)
  | some (fmode, dstRoot) =>
    let optind ← Prog.gets (·.optind)
    if optind ≥ argv.length then pure (-EINVAL)
    else
      let ret ←
        match dstRoot with
        | some dir => chdir dir
        | none => pure 0
      if ret ≠ 0 then
        let errno ← Prog.gets (·.errno)
        pure errno
      else
        let files ← operands argv
        hgetFiles fuel fmode files

/-- The option loop of `cmd_hpush`: append flag and destination name. -/
def hpushOptions : List GetoptItem → Bool × Option Bytes → Option (Bool × Option Bytes)
  | [], st => some st
  | .opt c arg :: items, (append, dstName) =>
    if c = 97 then hpushOptions items (true, dstName)
    else if c = 111 then hpushOptions items (append, arg)
    else none
  | .bad :: _, _ => none

/-- `cmd_hpush`. -/
def cmdHpush (fuel : Nat) (argv : List Bytes) : Guest Int := do
  let (items, argv) ← getoptAll (ascii "ao:") argv
  match hpushOptions items (false, none) with
  | none => pure (-EINVAL)
  | some (append, dstName) =>
    let optind ← Prog.gets (·.optind)
    if optind + 1 ≠ argv.length then pure (-EINVAL)
    else
      match ← argvAt argv optind with
      | none => Prog.stop .outOfBounds
      | some srcPath =>
        match dstName with
        | some name => hpushFile fuel srcPath name append.toNat
        | none => hpushFile fuel srcPath (basename srcPath) append.toNat

/-- The format `"%lu,%lx-%lx"`. -/
def hrangeFormat : List Scanf.Directive :=
  [.conv { kind := .lu }, .lit 44, .conv { kind := .lx }, .lit 45, .conv { kind := .lx }]

/-- The locals of `cmd_hrange`, shared by all rounds of its loop. -/
structure RangeVars where
  rangeId : Nat
  rangeStart : Nat
  rangeEnd : Nat

/-- The stores of `sscanf(.., &range_id, &range_start, &range_end)`. -/
def RangeVars.assign (vars : RangeVars) : List Scanf.Val → RangeVars
  | [.num a] => { vars with rangeId := a }
  | [.num a, .num b] => { vars with rangeId := a, rangeStart := b }
  | [.num a, .num b, .num c] => ⟨a, b, c⟩
  | _ => vars

/-- The rounding of the end of a range (`uint64_t`). -/
def roundEnd (rangeEnd : Nat) : Nat :=
  if rangeEnd &&& 0xfff ≠ 0 then (rangeEnd / PAGE_SIZE + 1) * PAGE_SIZE % 2 ^ 64 else rangeEnd

/-- The rounding of the start of a range (`uint64_t`). -/
def roundStart (rangeStart : Nat) : Nat :=
  if rangeStart &&& 0xfff ≠ 0 then rangeStart - rangeStart % PAGE_SIZE else rangeStart

/-- The argument loop of `cmd_hrange`. -/
def hrangeArgs (fuel : Nat) : RangeVars → List Bytes → Guest Int
  | _, [] => pure 0
  | vars, a :: as =>
    let (n, vals) := Scanf.sscanf hrangeFormat a
    let vars := vars.assign vals
    if n ≠ 3 then pure (-EINVAL)
    else if vars.rangeId > 3 then pure (-EINVAL)
    else if vars.rangeStart ≥ vars.rangeEnd then pure (-EINVAL)
    else do
      let vars := { vars with rangeEnd := roundEnd vars.rangeEnd }
      let vars := { vars with rangeStart := roundStart vars.rangeStart }
      hrangeSubmit fuel vars.rangeId vars.rangeStart vars.rangeEnd
      hrangeArgs fuel vars as

/-- `cmd_hrange`. -/
def cmdHrange (fuel : Nat) (argv : List Bytes) : Guest Int := do
  let env ← Prog.gets (·.env)
  let args ← operands argv
  hrangeArgs fuel ⟨env.uninit, env.uninit, env.uninit⟩ args

/-- `cmd_check`. -/
def cmdCheck (fuel : Nat) (_argv : List Bytes) : Guest Int := do
  let t ← Prog.gets (·.nyxCpuType)
  if t = .nyxCpuInvalid then pure NyxCpuType.nyxCpuNone.val
  else if t = .nyxCpuNone then pure t.val
  else
    let ret ← checkHostMagic fuel
    if ret ≠ 0 then
      habortMsg fuel (ascii "[check] Incompatible host magic or version.")
      pure (-t.val)
    else pure t.val

/-- `cmd_hlock`. -/
def cmdHlock (fuel : Nat) (_argv : List Bytes) : Guest Int := do
  let _ ← hypercall fuel .lock
  pure 0

/-! ## Dispatch -/

/-- The entries of `cmd_list`. -/
inductive Cmd
  | vmcall
  | hcat
  | habort
  | hget
  | hpush
  | hpanic
  | hrange
  | hlock
  | check
  deriving DecidableEq

def Cmd.name : Cmd → Bytes
  | .vmcall => ascii "vmcall"
  | .hcat => ascii "hcat"
  | .habort => ascii "habort"
  | .hget => ascii "hget"
  | .hpush => ascii "hpush"
  | .hpanic => ascii "hpanic"
  | .hrange => ascii "hrange"
  | .hlock => ascii "hlock"
  | .check => ascii "check"

/-- `cmd_list`, in the order of the source. -/
def cmdList : List Cmd :=
  [.vmcall, .hcat, .habort, .hget, .hpush, .hpanic, .hrange, .hlock, .check]

/-- The first entry whose name `basename(token)` begins with. `basename(NULL)`
is `"."`. -/
def lookup (token : Option Bytes) : Option Cmd :=
  let name := (token.map basename).getD (ascii ".")
  cmdList.find? fun c => strncmpEq name c.name c.name.length

/-- The handler of an entry other than `vmcall`. -/
def handler (fuel : Nat) : Cmd → List Bytes → Guest Int
  | .hcat => cmdHcat fuel
  | .habort => cmdHabort fuel
  | .hget => cmdHget fuel
  | .hpush => cmdHpush fuel
  | .hpanic => cmdHpanic fuel
  | .hrange => cmdHrange fuel
  | .hlock => cmdHlock fuel
  | .check => cmdCheck fuel
  | .vmcall => fun _ => pure (-EINVAL)

/-- `cmd_vmcall` on the result of its `cmd_dispatch`: an unknown command falls
back to the usage text. -/
def cmdVmcall (dispatch : Guest Int) : Guest Int := do
  let ret ← dispatch
  if ret = -EINVAL then pure 0 else pure ret

/-- `cmd_dispatch`, with a bound on the number of dispatch steps. -/
def cmdDispatch (fuel : Nat) : Nat → List Bytes → Guest Int
  | 0, _ => Prog.stop .timeout
  | steps + 1, argv => do
    let optind ← Prog.gets (·.optind)
    let token ← argvAt argv optind
    match lookup token with
    | none => pure (-EINVAL)
    | some c =>
      Prog.modify fun w => { w with optind := optind + 1 }
      if c = .vmcall then cmdVmcall (cmdDispatch fuel steps argv) else handler fuel c argv

/-- `main`. One dispatch step for each token and one for the terminating `NULL`
are enough. -/
def vmcallMain (fuel : Nat) (argv : List Bytes) : Guest Int := do
  let t ← getNyxCpuType
  Prog.modify fun w => { w with nyxCpuType := t, optind := 0 }
  cmdDispatch fuel (argv.length + 1) argv

/-- The status the parent process sees for the value `main` returns. -/
def exitStatus (ret : Int) : Nat := (ret % 256).toNat

end KaflTargets
