/-!
# Flags

How the arguments of a command line are taken apart.

There are two kinds of flags: options, which have a value, and switches, which
have none. The value of an option stands behind an equals sign or is the next
argument; in the second case it must not look like a flag. Nothing else may
stand on the line.

Arguments are taken from left to right, and the first mistake counts. But an
option whose value is the next argument is not looked at before it is settled,
by the next flag that is known or by the end of the line. So an unknown flag
behind it is noticed first. When an option is settled it is asked in turn
whether it has a value, whether it was there before, and whether the value is a
good one.

## Main definitions

* `FlagError`: What is wrong with a command line, or what it asks for instead.
* `Flag`: A flag that a program knows, with what it does.
* `Flags.read`: What a command line comes to.
-/

namespace QuorumStore

/-- What is wrong with a command line, or what it asks for instead. -/
inductive FlagError where
  /-- An argument is no flag that is known. -/
  | unknown
  /-- An option has no value, or an empty one that cannot be. -/
  | noValue
  /-- A value does not make sense. -/
  | badValue
  /-- A flag that can be there once is there twice. -/
  | repeated
  /-- A switch has a value. -/
  | needlessValue
  /-- Help is asked for. -/
  | help
  /-- The version is asked for. -/
  | version
  deriving DecidableEq, Repr

/-- What a flag does to what has been read so far. -/
inductive FlagAction (σ : Type) where
  /-- It has a value. Only a `repeatable` option may be there twice. -/
  | option (repeatable : Bool) (store : String → σ → Except FlagError σ)
  | switch (store : σ → σ)
  /-- It puts an end to everything. -/
  | stop (e : FlagError)

/-- A flag that a program knows. -/
structure Flag (σ : Type) where
  name : String
  action : FlagAction σ

namespace Flags

variable {σ : Type}

/-- The flags that every program has. -/
def standard : List (Flag σ) := [⟨"help", .stop .help⟩, ⟨"version", .stop .version⟩]

/-- The flags of one letter. -/
def letters : List (Char × FlagError) := [('h', .help), ('V', .version)]

/-- An option that has yet to be settled. -/
structure Pending (σ : Type) where
  name : String
  repeatable : Bool
  store : String → σ → Except FlagError σ
  value : Option String := none

/-- How far a command line has been read. -/
structure State (σ : Type) where
  result : σ
  /-- The flags that were there. -/
  seen : List String := []
  pending : Option (Pending σ) := none

/-- Note that a flag is there. -/
def State.note (st : State σ) (name : String) (repeatable : Bool) :
    Except FlagError (State σ) :=
  if !repeatable && st.seen.contains name then .error .repeated
  else .ok { st with seen := name :: st.seen }

/-- Settle an option. -/
def State.settle (st : State σ) (p : Pending σ) : Except FlagError (State σ) :=
  match p.value with
  | none => .error .noValue
  | some v => do
    let st ← st.note p.name p.repeatable
    .ok { st with result := ← p.store v st.result }

/-- Settle the option that has yet to be, if there is one. -/
def State.settlePending (st : State σ) : Except FlagError (State σ) :=
  match st.pending with
  | none => .ok st
  | some p => { st with pending := none }.settle p

/-- A flag that is known, with the value attached to it. -/
def State.take (st : State σ) (f : Flag σ) (attached : Option String) :
    Except FlagError (State σ) :=
  match f.action, attached with
  | .option repeatable store, none => do
    let st ← st.settlePending
    .ok { st with pending := some ⟨f.name, repeatable, store, none⟩ }
  | .option repeatable store, some v => do
    (← st.settlePending).settle ⟨f.name, repeatable, store, some v⟩
  | .switch store, none => do
    let st ← (← st.settlePending).note f.name false
    .ok { st with result := store st.result }
  | .stop e, none => do
    let _ ← st.settlePending
    .error e
  | _, some _ => .error .needlessValue

/-- The name of a flag and the value attached to it, if the argument is one by
    its form. -/
def named? (arg : List Char) : Option (String × Option String) :=
  match arg with
  | '-' :: '-' :: c :: cs =>
    let name := (c :: cs).takeWhile (· != '=')
    let value := match (c :: cs).dropWhile (· != '=') with
      | [] => none
      | _ :: v => some (String.ofList v)
    some (String.ofList name, value)
  | _ => none

/-- The letter of a flag, if the argument is one by its form. -/
def letter? (arg : List Char) : Option Char :=
  match arg with
  | '-' :: c :: _ => if c = '-' then none else some c
  | _ => none

/-- What becomes of one argument. -/
def State.step (flags : List (Flag σ)) (st : State σ) (arg : String) :
    Except FlagError (State σ) :=
  match named? arg.toList with
  | some (name, attached) =>
    match flags.find? (·.name == name) with
    | some f => st.take f attached
    | none => .error .unknown
  | none =>
    match letter? arg.toList with
    | some c =>
      match letters.lookup c with
      | some e => do
        let _ ← st.settlePending
        .error e
      | none => .error .unknown
    | none =>
      match st.pending with
      | some p =>
        if p.value.isNone then .ok { st with pending := some { p with value := some arg } }
        else .error .unknown
      | none => .error .unknown

/-- What becomes of the rest of a command line. Two dashes alone say that no
    more flags follow, so nothing may follow at all. -/
def State.run (flags : List (Flag σ)) (st : State σ) : List String → Except FlagError σ
  | [] => return (← st.settlePending).result
  | arg :: args => do
    if arg = "--" then
      if args.isEmpty then return (← st.settlePending).result else .error .unknown
    else (← st.step flags arg).run flags args

/-- What a command line comes to, beginning with `start`. -/
def read (flags : List (Flag σ)) (start : σ) (args : List String) : Except FlagError σ :=
  State.run (flags ++ standard) { result := start } args

end Flags

end QuorumStore
