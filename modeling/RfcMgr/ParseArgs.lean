import Mathlib.Algebra.Group.Nat.Even
import Mathlib.Data.List.DropRight
import RfcMgr.RfcCommon

/-! The command lines of `tr181` and `trsetutils`: two copies of one loop over the arguments, which
advances its index itself. An option that takes a value advances it by two, and only when there is an
argument behind it; the `-n` of `tr181` takes that argument without looking.

The index starts at 1, `argv[0]` being the name of the program, and `argv[argc]` is a null pointer. -/

namespace RfcMgr.ParseArgs

/-- `REQ_TYPE`; `trsetutils` has no `DELETE_ROW`. -/
inductive ReqType where
  | get | set | deleteRow
  deriving DecidableEq

/-- The globals that the parsers set. `none` is a null pointer. -/
structure Options where
  mode : ReqType
  valueType : Char
  value : Option Str
  key : Option Str
  id : Option Str
  silent : Bool
  deriving DecidableEq

def Options.initial : Options := ⟨.get, 'u', none, none, none, true⟩

/-- `strncasecmp(arg, option, 2) == 0`. -/
def isOption (arg : Str) (option : String) : Bool := (arg.take 2).map Char.toLower == option.toList

/-- `arg[0]`. -/
def firstChar (arg : Str) : Char := arg.head?.getD (Char.ofNat 0)

/-- What a branch of the loop does with the argument it is for. -/
inductive Branch where
  /-- The argument stands for itself. -/
  | alone (set : Options → Options)
  /-- The next argument is its value, when there is one; nothing is done otherwise. -/
  | guarded (set : Str → Options → Options)
  /-- `argv[i + 1]` is its value, whatever that is. -/
  | unguarded (set : Option Str → Options → Options)

/-- The branches of `parseargs` in tr181utils.cpp. -/
def tr181Branch (arg : Str) : Branch :=
  if isOption arg "-s" then .alone fun o => { o with mode := .set }
  else if isOption arg "-c" then .alone fun o => { o with mode := .deleteRow }
  else if isOption arg "-t" then .guarded fun next o => { o with valueType := firstChar next }
  else if isOption arg "-v" then .guarded fun next o => { o with value := some next }
  else if firstChar arg ≠ '-' then .alone fun o => { o with key := some arg }
  else if isOption arg "-d" then .alone fun o => { o with silent := false }
  else if isOption arg "-n" then .unguarded fun next o => { o with id := next }
  else .alone id

/-- The branches of `parseargs` in trsetutils.cpp. -/
def trsetBranch (arg : Str) : Branch :=
  if isOption arg "-s" then .alone fun o => { o with mode := .set }
  else if isOption arg "-v" then .guarded fun next o => { o with value := some next }
  else if firstChar arg ≠ '-' then .alone fun o => { o with key := some arg }
  else if isOption arg "-d" then .alone fun o => { o with silent := false }
  else .alone id

/-- The state of the loop: its index, the globals, and the indices of `argv` that were read. -/
structure Scan where
  i : Nat
  options : Options
  reads : List Nat

/-- One turn of `while (i < argc)`. -/
def turn (branch : Str → Branch) (argv : List Str) (arg : Str) (scan : Scan) : Scan :=
  match branch arg with
  | .alone set => ⟨scan.i + 1, set scan.options, scan.reads ++ [scan.i]⟩
  | .guarded set =>
      match argv[scan.i + 1]? with
      | some next => ⟨scan.i + 2, set next scan.options, scan.reads ++ [scan.i, scan.i + 1]⟩
      | none => ⟨scan.i, scan.options, scan.reads ++ [scan.i]⟩
  | .unguarded set =>
      ⟨scan.i + 2, set argv[scan.i + 1]? scan.options, scan.reads ++ [scan.i, scan.i + 1]⟩

/-- The loop, for as many turns as the fuel allows. -/
def parseLoop (branch : Str → Branch) (argv : List Str) : Nat → Scan → Option Scan
  | 0, _ => none
  | fuel + 1, scan =>
      match argv[scan.i]? with
      | none => some scan
      | some arg => parseLoop branch argv fuel (turn branch argv arg scan)

/-- What the arguments mean: an option that takes a value has the argument behind it, and is without
effect when it is the last. -/
def meaning (branch : Str → Branch) : List Str → Options → Options
  | [], o => o
  | [arg], o =>
      match branch arg with
      | .alone set => set o
      | _ => o
  | arg :: next :: rest, o =>
      match branch arg with
      | .alone set => meaning branch (next :: rest) (set o)
      | .guarded set => meaning branch rest (set next o)
      | .unguarded set => meaning branch rest (set (some next) o)

/-- The parser returns with what the arguments mean, and has read none of `argv[argc]` and beyond. -/
def ParsesSafely (branch : Str → Branch) (argv : List Str) : Prop :=
  ∃ fuel scan, parseLoop branch argv fuel ⟨1, .initial, []⟩ = some scan ∧
    (∀ i ∈ scan.reads, i < argv.length) ∧ scan.options = meaning branch (argv.drop 1) .initial

def takesValue (branch : Str → Branch) (arg : Str) : Bool :=
  match branch arg with
  | .alone _ => false
  | _ => true

/-- The options that take a value and that only such options stand behind. -/
def trailing (branch : Str → Branch) (args : List Str) : List Str := args.rtakeWhile (takesValue branch)

section Loop

variable (branch : Str → Branch) (argv : List Str)

/-- The loop ends in a state with the property. -/
def Ends (P : Scan → Prop) (scan : Scan) : Prop :=
  ∃ fuel scan', parseLoop branch argv fuel scan = some scan' ∧ P scan'

variable {branch argv}

theorem ends_iff_of_done {P : Scan → Prop} {scan : Scan} (h : argv[scan.i]? = none) :
    Ends branch argv P scan ↔ P scan := by
  constructor
  · rintro ⟨fuel, scan', hloop, hP⟩
    cases fuel with
    | zero => cases hloop
    | succ fuel =>
        simp only [parseLoop, h, Option.some.injEq] at hloop
        exact hloop ▸ hP
  · intro hP
    exact ⟨1, scan, by simp only [parseLoop, h], hP⟩

theorem ends_iff_turn {P : Scan → Prop} {scan : Scan} {arg : Str} (h : argv[scan.i]? = some arg) :
    Ends branch argv P scan ↔ Ends branch argv P (turn branch argv arg scan) := by
  constructor
  · rintro ⟨fuel, scan', hloop, hP⟩
    cases fuel with
    | zero => cases hloop
    | succ fuel =>
        simp only [parseLoop, h] at hloop
        exact ⟨fuel, scan', hloop, hP⟩
  · rintro ⟨fuel, scan', hloop, hP⟩
    exact ⟨fuel + 1, scan', by simpa only [parseLoop, h] using hloop, hP⟩

/-- An option at the end that waits for its value keeps the loop going. -/
theorem not_ends_of_waits {P : Scan → Prop} {scan : Scan} {arg : Str}
    {set : Str → Options → Options} (h : argv[scan.i]? = some arg) (hbranch : branch arg = .guarded set)
    (hlast : argv[scan.i + 1]? = none) : ¬ Ends branch argv P scan := by
  rintro ⟨fuel, scan', hloop, -⟩
  induction fuel generalizing scan with
  | zero => cases hloop
  | succ fuel ih =>
      simp only [parseLoop, h, turn, hbranch, hlast] at hloop
      exact @ih ⟨scan.i, scan.options, scan.reads ++ [scan.i]⟩ h hlast hloop

theorem turn_alone {arg : Str} {set : Options → Options} (h : branch arg = .alone set) (scan : Scan) :
    turn branch argv arg scan = ⟨scan.i + 1, set scan.options, scan.reads ++ [scan.i]⟩ := by
  rw [turn, h]

theorem turn_guarded {arg next : Str} {set : Str → Options → Options} {scan : Scan}
    (h : branch arg = .guarded set) (hnext : argv[scan.i + 1]? = some next) :
    turn branch argv arg scan =
      ⟨scan.i + 2, set next scan.options, scan.reads ++ [scan.i, scan.i + 1]⟩ := by
  rw [turn, h]
  simp only [hnext]

theorem turn_unguarded {arg : Str} {set : Option Str → Options → Options}
    (h : branch arg = .unguarded set) (scan : Scan) :
    turn branch argv arg scan =
      ⟨scan.i + 2, set argv[scan.i + 1]? scan.options, scan.reads ++ [scan.i, scan.i + 1]⟩ := by
  rw [turn, h]

theorem trailing_nil : trailing branch [] = [] := List.rtakeWhile_nil _

theorem trailing_cons_of_alone {arg : Str} (h : takesValue branch arg = false) (args : List Str) :
    trailing branch (arg :: args) = trailing branch args := by
  unfold trailing
  induction args using List.reverseRecOn with
  | nil =>
      rw [← List.nil_append [arg], List.rtakeWhile_concat_neg _ _ _ (by simp [h])]
      exact (List.rtakeWhile_nil _).symm
  | append_singleton args last ih =>
      rw [← List.cons_append, List.rtakeWhile_concat, List.rtakeWhile_concat, ih]

/-- An option and its value change nothing about whether the options at the end come in pairs. -/
theorem even_trailing_cons_cons {arg : Str} (h : takesValue branch arg = true) (next : Str)
    (args : List Str) :
    Even (trailing branch (arg :: next :: args)).length ↔ Even (trailing branch args).length := by
  unfold trailing
  induction args using List.reverseRecOn with
  | nil =>
      rw [show [arg, next] = [] ++ [arg] ++ [next] by rfl, List.rtakeWhile_concat,
        List.rtakeWhile_concat_pos _ _ _ h, List.rtakeWhile_nil]
      split
      · show Even 2 ↔ Even 0
        decide
      · rfl
  | append_singleton args last ih =>
      rw [show arg :: next :: (args ++ [last]) = (arg :: next :: args) ++ [last] by rfl,
        List.rtakeWhile_concat, List.rtakeWhile_concat]
      split
      · rw [List.length_append, List.length_append, List.length_singleton, Nat.even_add_one,
          Nat.even_add_one, ih]
      · rfl

theorem trailing_singleton {arg : Str} (h : takesValue branch arg = true) :
    trailing branch [arg] = [arg] := by
  unfold trailing
  rw [← List.nil_append [arg], List.rtakeWhile_concat_pos _ _ _ h, List.rtakeWhile_nil]

theorem of_drop_eq_cons {i : Nat} {arg : Str} {args : List Str} (h : argv.drop i = arg :: args) :
    i < argv.length ∧ argv[i]? = some arg ∧ argv.drop (i + 1) = args := by
  refine ⟨?_, ?_, ?_⟩
  · have hlen := congrArg List.length h
    rw [List.length_drop, List.length_cons] at hlen
    omega
  · have hhead : (argv.drop i)[0]? = some arg := by rw [h]; rfl
    rwa [List.getElem?_drop] at hhead
  · rw [← List.drop_drop, h, List.drop_one, List.tail_cons]

theorem getElem?_of_drop_eq_nil {i : Nat} (h : argv.drop i = []) : argv[i]? = none :=
  List.getElem?_eq_none (List.drop_eq_nil_iff.mp h)

/-- Nothing of `argv[argc]` and beyond has been read, and the globals are as given. -/
def ReadSafely (argv : List Str) (o : Options) (scan : Scan) : Prop :=
  (∀ i ∈ scan.reads, i < argv.length) ∧ scan.options = o

theorem forall_mem_append {reads more : List Nat} {n : Nat} (h : ∀ j ∈ reads, j < n)
    (hmore : ∀ j ∈ more, j < n) : ∀ j ∈ reads ++ more, j < n := by
  intro j hj
  obtain hj | hj := List.mem_append.mp hj
  · exact h j hj
  · exact hmore j hj

theorem pair_lt {i n : Nat} (hi : i + 1 < n) : ∀ j ∈ [i, i + 1], j < n := by
  intro j hj
  simp only [List.mem_cons, List.not_mem_nil, or_false] at hj
  omega

/-- From an option on, the loop ends well when the options at the end come in pairs. By the recursion
of `meaning`: an argument that stands for itself, an option with the argument behind it, or the last
one. -/
theorem ends_iff (args : List Str) (o : Options) {scan : Scan} (hargs : argv.drop scan.i = args)
    (hoptions : scan.options = o) (hreads : ∀ i ∈ scan.reads, i < argv.length) :
    Ends branch argv (ReadSafely argv (meaning branch args o)) scan ↔
      Even (trailing branch args).length := by
  fun_induction meaning branch args o generalizing scan with
  | case1 o =>
      rw [ends_iff_of_done (getElem?_of_drop_eq_nil hargs), trailing_nil]
      exact iff_of_true ⟨hreads, hoptions⟩ (by decide)
  | case2 arg o set hbranch =>
      obtain ⟨hi, harg, hrest⟩ := of_drop_eq_cons hargs
      rw [ends_iff_turn harg, turn_alone hbranch, ends_iff_of_done (getElem?_of_drop_eq_nil hrest),
        trailing_cons_of_alone (by rw [takesValue, hbranch]), trailing_nil]
      refine iff_of_true ⟨forall_mem_append hreads (by simpa using hi), ?_⟩ (by decide)
      exact congrArg set hoptions
  | case3 arg o hbranch =>
      obtain ⟨hi, harg, hrest⟩ := of_drop_eq_cons hargs
      have htakes : takesValue branch arg = true := by
        rw [takesValue]
        split
        next set hset => exact absurd hset (hbranch set)
        · rfl
      rw [trailing_singleton htakes]
      refine iff_of_false ?_ (by simp)
      cases hset : branch arg with
      | alone set => exact absurd hset (hbranch set)
      | guarded set => exact not_ends_of_waits harg hset (getElem?_of_drop_eq_nil hrest)
      | unguarded set =>
          -- the value is read behind the end
          have hend : argv.length ≤ scan.i + 1 := List.drop_eq_nil_iff.mp hrest
          rw [ends_iff_turn harg, turn_unguarded hset,
            ends_iff_of_done (List.getElem?_eq_none (by show argv.length ≤ scan.i + 2; omega))]
          rintro ⟨hread, -⟩
          have := hread (scan.i + 1) (by simp)
          omega
  | case4 arg next rest o set hbranch ih =>
      obtain ⟨hi, harg, hrest⟩ := of_drop_eq_cons hargs
      rw [ends_iff_turn harg, turn_alone hbranch,
        trailing_cons_of_alone (by rw [takesValue, hbranch])]
      exact ih hrest (congrArg set hoptions) (forall_mem_append hreads (by simpa using hi))
  | case5 arg next rest o set hbranch ih =>
      obtain ⟨-, harg, hrest⟩ := of_drop_eq_cons hargs
      obtain ⟨hi, hnext, hrest⟩ := of_drop_eq_cons hrest
      rw [ends_iff_turn harg, turn_guarded hbranch hnext,
        even_trailing_cons_cons (by rw [takesValue, hbranch])]
      exact ih hrest (congrArg (set next) hoptions)
        (forall_mem_append hreads (pair_lt hi))
  | case6 arg next rest o set hbranch ih =>
      obtain ⟨-, harg, hrest⟩ := of_drop_eq_cons hargs
      obtain ⟨hi, hnext, hrest⟩ := of_drop_eq_cons hrest
      rw [ends_iff_turn harg, turn_unguarded hbranch, hnext,
        even_trailing_cons_cons (by rw [takesValue, hbranch])]
      exact ih hrest (congrArg (set (some next)) hoptions)
        (forall_mem_append hreads (pair_lt hi))

end Loop

/-- **The command lines**: each parser ends, with every option given the argument behind it and without
a read behind the end, when the options that take a value and end the command line come in pairs. -/
theorem parseargs_iff (argv : List Str) :
    (ParsesSafely tr181Branch argv ↔ Even (trailing tr181Branch (argv.drop 1)).length) ∧
      (ParsesSafely trsetBranch argv ↔ Even (trailing trsetBranch (argv.drop 1)).length) :=
  ⟨ends_iff _ _ rfl rfl (by simp), ends_iff _ _ rfl rfl (by simp)⟩

/-- `tr181 -v`: the option is looked at for ever. -/
theorem not_parsesSafely_v : ¬ ParsesSafely tr181Branch ["tr181".toList, "-v".toList] :=
  not_ends_of_waits rfl rfl rfl

end RfcMgr.ParseArgs
