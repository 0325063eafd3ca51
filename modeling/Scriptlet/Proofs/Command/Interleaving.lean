import Scriptlet.Command.Options

/-!
# Options anywhere

A flag is an option as it is written, with its value if it has one. `Interleaves` says that a list
of arguments holds the arguments of some flags and other arguments, each in their order. However
they are interleaved, the others are collected as they stand, and of several flags for one option
the last counts (`read_interleaved`). Each step of the reading is one lemma: a plain argument is
collected (`readFrom_plain`), and a flag is taken as a whole (`readFrom_flag`), whatever the
argument looks like that it takes for its value.
-/

namespace Scriptlet

namespace Options

/-! ## Flags -/

/-- The options that are on or off. -/
inductive Toggle where
  | json
  | verbose
  deriving DecidableEq

def Toggle.name : Toggle → Text
  | .json => "json"
  | .verbose => "verbose"

/-- The words for a truth value. -/
def truthWords : Bool → List Text
  | true => ["1", "t", "T", "true", "TRUE", "True"]
  | false => ["0", "f", "F", "false", "FALSE", "False"]

/-- A word for a truth value. -/
structure TruthWord where
  value : Bool
  word : Text
  word_mem : word ∈ truthWords value

/-- An option as it is written, with one hyphen or two. -/
inductive Flag where
  /-- An option that is turned on if no truth value is attached. -/
  | toggle (doubled : Bool) (option : Toggle) (value : Option TruthWord)
  /-- The settings file, attached to the name of the option or as the argument after it. -/
  | config (doubled : Bool) (path : Text) (attached : Bool)

/-- The hyphens in front of the name of an option. -/
def hyphens (doubled : Bool) : Text := if doubled then "--" else "-"

namespace Flag

/-- The arguments that a flag takes up. -/
def arguments : Flag → List Text
  | .toggle doubled option none => [hyphens doubled ++ option.name]
  | .toggle doubled option (some value) => [hyphens doubled ++ option.name ++ "=" ++ value.word]
  | .config doubled path true => [hyphens doubled ++ "config" ++ "=" ++ path]
  | .config doubled path false => [hyphens doubled ++ "config", path]

/-- The truth value that a flag gives to an option, if it is for this option. -/
def toggle? (option : Toggle) : Flag → Option Bool
  | .toggle _ named value => if named = option then some (value.elim true TruthWord.value) else none
  | .config .. => none

/-- The settings file that a flag names, if it names one. -/
def config? : Flag → Option Text
  | .toggle .. => none
  | .config _ path _ => some path

/-- Options that a flag changes. -/
def apply (o : Options) (f : Flag) : Options :=
  { o with
    json := (f.toggle? .json).getD o.json
    verbose := (f.toggle? .verbose).getD o.verbose
    config := f.config?.getD o.config }

end Flag

/-- Other arguments and the arguments of flags in one list, in which both are in their order and no
flag is torn apart. -/
inductive Interleaves : List Text → List Flag → List Text → Prop where
  | nil : Interleaves [] [] []
  | plain {p : Text} {plains : List Text} {flags : List Flag} {arguments : List Text} :
    Interleaves plains flags arguments → Interleaves (p :: plains) flags (p :: arguments)
  | flag {f : Flag} {plains : List Text} {flags : List Flag} {arguments : List Text} :
    Interleaves plains flags arguments → Interleaves plains (f :: flags) (f.arguments ++ arguments)

/-! ## The form of an argument -/

/-- An argument that is shorter than two bytes or does not begin with a hyphen. -/
def IsPlain (argument : Text) : Prop :=
  argument.length < 2 ∨ argument.head? ≠ some (Text.byte '-')

theorem Form.of_plain {argument : Text} (h : IsPlain argument) : Form.of argument = .plain := by
  match argument, h with
  | [], _ | [_], _ => rfl
  | first :: second :: rest, h =>
    have hfirst : first ≠ Text.byte '-' := by
      rintro rfl
      rcases h with h | h
      · exact absurd h (by simp)
      · exact h rfl
    rw [Form.of, if_pos hfirst]

/-- A name that an option can have. -/
structure IsName (name : Text) : Prop where
  ne_nil : name ≠ []
  hyphen_not_mem : Text.byte '-' ∉ name
  equals_not_mem : Text.byte '=' ∉ name

theorem Form.ofName_append {name : Text} (h : IsName name) (tail : Text)
    (htail : ∀ b ∈ tail.head?, b = Text.byte '=') :
    Form.ofName (name ++ tail) = .option name (if tail = [] then none else some tail.tail) := by
  obtain ⟨first, rest, rfl⟩ := List.exists_cons_of_ne_nil h.ne_nil
  have hhyphen : first ≠ Text.byte '-' := fun hb => h.hyphen_not_mem (hb ▸ List.mem_cons_self)
  have hequals : first ≠ Text.byte '=' := fun hb => h.equals_not_mem (hb ▸ List.mem_cons_self)
  have hrest : ∀ b ∈ rest, decide (b ≠ Text.byte '=') = true := by
    intro b hb
    rw [decide_eq_true_iff]
    rintro rfl
    exact h.equals_not_mem (List.mem_cons_of_mem _ hb)
  rw [List.cons_append, Form.ofName, if_neg (not_or_intro hhyphen hequals)]
  rw [List.takeWhile_append_of_pos hrest, List.dropWhile_append_of_pos hrest]
  cases tail with
  | nil => simp
  | cons b tail =>
    obtain rfl : b = Text.byte '=' := htail b rfl
    simp

theorem Form.of_hyphens {name : Text} (h : IsName name) (doubled : Bool) (tail : Text) :
    Form.of (hyphens doubled ++ (name ++ tail)) = Form.ofName (name ++ tail) := by
  obtain ⟨first, rest, rfl⟩ := List.exists_cons_of_ne_nil h.ne_nil
  have hhyphen : first ≠ Text.byte '-' := fun hb => h.hyphen_not_mem (hb ▸ List.mem_cons_self)
  cases doubled with
  | false =>
    change Form.of (Text.byte '-' :: first :: (rest ++ tail)) = _
    rw [Form.of, if_neg (not_not_intro rfl), if_pos hhyphen]
    rfl
  | true =>
    change Form.of (Text.byte '-' :: Text.byte '-' :: first :: (rest ++ tail)) = _
    rw [Form.of, if_neg (not_not_intro rfl), if_neg (not_not_intro rfl),
      if_neg (List.cons_ne_nil _ _)]
    rfl

/-- An option without a value. -/
theorem Form.of_option {name : Text} (h : IsName name) (doubled : Bool) :
    Form.of (hyphens doubled ++ name) = .option name none := by
  have hname := Form.ofName_append h [] nofun
  rw [← List.append_nil name, Form.of_hyphens h, hname, if_pos rfl, List.append_nil]

/-- An option with a value after an equals sign. -/
theorem Form.of_option_value {name : Text} (h : IsName name) (doubled : Bool) (value : Text) :
    Form.of (hyphens doubled ++ name ++ "=" ++ value) = .option name (some value) := by
  have hname := Form.ofName_append h (Text.byte '=' :: value) fun b hb => (Option.some.inj hb).symm
  have hequals : ("=" : Text) ++ value = Text.byte '=' :: value := rfl
  rw [List.append_assoc, hequals, List.append_assoc, Form.of_hyphens h, hname,
    if_neg (List.cons_ne_nil _ _), List.tail_cons]

theorem Toggle.isName (option : Toggle) : IsName option.name := by
  cases option <;> exact ⟨by decide, by decide, by decide⟩

theorem isName_config : IsName "config" := ⟨by decide, by decide, by decide⟩

theorem TruthWord.boolean? (w : TruthWord) : boolean? w.word = some w.value := by
  obtain ⟨value, word, hword⟩ := w
  have hall : ∀ b, ∀ word ∈ truthWords b, Options.boolean? word = some b := by decide
  exact hall value word hword

/-! ## One step -/

/-- A plain argument is collected. -/
theorem readFrom_plain {argument : Text} (h : IsPlain argument) (o : Options) (rest : List Text) :
    readFrom o (argument :: rest) = readFrom (o.push argument) rest := by
  rw [readFrom.eq_def]
  dsimp only
  rw [Form.of_plain h]

/-- An option that is on or off is set to the truth value that is given. -/
theorem readFrom_toggle (o : Options) (option : Toggle) {argument : Text} {value : Option Text}
    {b : Bool} (hform : Form.of argument = .option option.name value)
    (hvalue : switch option.name value = .ok b) (rest : List Text) :
    readFrom o (argument :: rest) = readFrom
      { o with
        json := if option = .json then b else o.json
        verbose := if option = .verbose then b else o.verbose } rest := by
  have hname : Toggle.verbose.name ≠ ("json" : Text) := by decide
  rw [readFrom.eq_def]
  dsimp only
  rw [hform]
  cases option with
  | json =>
    dsimp only
    rw [if_pos rfl, hvalue]
    rfl
  | verbose =>
    dsimp only
    rw [if_neg hname, if_pos rfl, hvalue]
    rfl

/-- The settings file is what is attached, or else the next argument. -/
theorem readFrom_config (o : Options) {argument : Text} (rest : List Text) :
    (∀ path, Form.of argument = .option "config" (some path) →
      readFrom o (argument :: rest) = readFrom { o with config := path } rest) ∧
    ∀ path, Form.of argument = .option "config" none →
      readFrom o (argument :: path :: rest) = readFrom { o with config := path } rest := by
  have hjson : ("config" : Text) ≠ "json" := by decide
  have hverbose : ("config" : Text) ≠ "verbose" := by decide
  constructor
  · intro path hform
    rw [readFrom.eq_def]
    dsimp only
    rw [hform]
    dsimp only
    rw [if_neg hjson, if_neg hverbose, if_pos rfl]
  · intro path hform
    rw [readFrom.eq_def]
    dsimp only
    rw [hform]
    dsimp only
    rw [if_neg hjson, if_neg hverbose, if_pos rfl]

/-- A flag is taken as a whole. -/
theorem readFrom_flag (o : Options) (f : Flag) (rest : List Text) :
    readFrom o (f.arguments ++ rest) = readFrom (f.apply o) rest := by
  cases f with
  | toggle doubled option value =>
    cases value with
    | none =>
      have hform := Form.of_option option.isName doubled
      have hread := readFrom_toggle o option hform rfl rest
      cases option <;> exact hread
    | some w =>
      have hform := Form.of_option_value option.isName doubled w.word
      have hvalue : switch option.name (some w.word) = .ok w.value := by rw [switch, w.boolean?]
      have hread := readFrom_toggle o option hform hvalue rest
      cases option <;> exact hread
  | config doubled path attached =>
    cases attached with
    | true =>
      exact (readFrom_config o rest).1 path (Form.of_option_value isName_config doubled path)
    | false => exact (readFrom_config o rest).2 path (Form.of_option isName_config doubled)

/-! ## All arguments -/

/-- The last of some flags that say something counts, and a flag in front of them only if none of
them does. -/
theorem getLastD_filterMap_cons {α : Type} (p : Flag → Option α) (f : Flag) (flags : List Flag)
    (a : α) :
    ((f :: flags).filterMap p).getLastD a = (flags.filterMap p).getLastD ((p f).getD a) := by
  rw [List.filterMap_cons]
  cases p f with
  | none => rfl
  | some b => exact List.getLastD_cons

theorem readFrom_interleaved {plains : List Text} {flags : List Flag} {arguments : List Text}
    (h : Interleaves plains flags arguments) (hplain : ∀ p ∈ plains, IsPlain p) (o : Options) :
    readFrom o arguments = .ok
      { json := (flags.filterMap (Flag.toggle? .json)).getLastD o.json
        verbose := (flags.filterMap (Flag.toggle? .verbose)).getLastD o.verbose
        config := (flags.filterMap Flag.config?).getLastD o.config
        arguments := o.arguments ++ plains } := by
  -- by induction on how the lists are interleaved, for all options that were read before
  induction h generalizing o with
  | nil => rw [readFrom, List.append_nil]; rfl
  | @plain p plains flags arguments _ ih =>
    obtain ⟨hfirst, hlater⟩ := List.forall_mem_cons.mp hplain
    rw [readFrom_plain hfirst, ih hlater (o.push p), push, List.append_assoc]
    rfl
  | @flag f plains flags arguments _ ih =>
    rw [readFrom_flag, ih hplain (f.apply o)]
    simp only [getLastD_filterMap_cons]
    rfl

/-- However flags and plain arguments are interleaved, they are read: the plain arguments in their
order, and for each option the value that the last flag for it gives. -/
theorem read_interleaved {plains : List Text} {flags : List Flag} {arguments : List Text}
    (h : Interleaves plains flags arguments) (hplain : ∀ p ∈ plains, IsPlain p) :
    read arguments = .ok
      { json := (flags.filterMap (Flag.toggle? .json)).getLastD false
        verbose := (flags.filterMap (Flag.toggle? .verbose)).getLastD false
        config := (flags.filterMap Flag.config?).getLastD []
        arguments := plains } :=
  readFrom_interleaved h hplain {}

/-- Two files, a settings file with a name like that of a flag, and a flag that is taken back. -/
theorem read_interleaved_disguisedFile :
    ∃ (plains : List Text) (flags : List Flag),
      Interleaves plains flags ["--json", "a", "-config", "--json", "-json=F", "b"] ∧
      (∀ p ∈ plains, IsPlain p) ∧
      read ["--json", "a", "-config", "--json", "-json=F", "b"] =
        .ok { json := false, verbose := false, config := "--json", arguments := ["a", "b"] } := by
  let flags : List Flag :=
    [.toggle true .json none, .config false "--json" false,
      .toggle false .json (some ⟨false, "F", by decide⟩)]
  have h : Interleaves ["a", "b"] flags ["--json", "a", "-config", "--json", "-json=F", "b"] :=
    .flag (f := flags[0]) (.plain (.flag (f := flags[1]) (.flag (f := flags[2]) (.plain .nil))))
  have hplain : ∀ p ∈ [("a" : Text), "b"], IsPlain p := by
    unfold IsPlain
    decide
  exact ⟨_, flags, h, hplain, read_interleaved h hplain⟩

end Options

end Scriptlet
