import Transpiler.Command.Arguments
import Transpiler.Text.Slice

/-!
Contract: a command line as a sequence of items.

Owns: what an item asks for and the ways to write it, that every command line is a sequence of
items, and what a sequence of items amounts to. From that it follows that neither the way a value
is written nor the order of items that do not compete matters.

An item takes one or two arguments, and a flag that takes a value takes whatever argument follows.
Where an item begins is therefore known only from the items before it.
-/

namespace Transpiler

/-! ### Names of flags -/

def FlagMeaning.names : FlagMeaning → List String
  | .help => ["-h", "--help"]
  | .version => ["--version"]
  | .switch .listTree => ["--ast"]
  | .switch .debug => ["--debug"]
  | .switch .verbose => ["-V", "--verbose"]
  | .switch .keepGoing => ["--keep-going"]
  | .switch .escapeStrings => ["--escape-strings"]
  | .valued .format => ["-f", "--format"]
  | .valued .output => ["-o", "--output"]

/-- The name behind which a value may be written in the same argument. -/
def ValueFlag.longName : ValueFlag → String
  | .format => "--format"
  | .output => "--output"

/-- A name behind which an argument may go on after an equals sign. -/
def IsLong (name : String) : Prop :=
  ['-', '-'] <+: name.toList

/-- What holds of every name: it has its meaning, it looks like a flag, and an equals sign is not
part of it. -/
theorem FlagMeaning.of_mem_names {meaning : FlagMeaning} {name : String}
    (named : name ∈ meaning.names) :
    flagMeaning? name = some meaning ∧ looksLikeFlag name = true ∧ '=' ∉ name.toList := by
  have table : ∀ name ∈ meaning.names,
      flagMeaning? name = some meaning ∧ looksLikeFlag name = true ∧ '=' ∉ name.toList := by
    rcases meaning with _ | _ | switch | flag
    · decide
    · decide
    · cases switch <;> decide
    · cases flag <;> decide
  exact table name named

private theorem flagMeaning?_eq_some_iff {name : String} {meaning : FlagMeaning} :
    flagMeaning? name = some meaning ↔ name ∈ meaning.names := by
  refine ⟨fun known => ?_, fun named => (FlagMeaning.of_mem_names named).1⟩
  unfold flagMeaning? at known
  split at known
  case h_14 => contradiction
  all_goals
    obtain rfl := Option.some.inj known
    decide

theorem ValueFlag.longName_mem_names (flag : ValueFlag) :
    flag.longName ∈ (FlagMeaning.valued flag).names := by
  cases flag <;> decide

theorem ValueFlag.isLong_longName (flag : ValueFlag) : IsLong flag.longName := by
  cases flag <;> exact ⟨_, rfl⟩

theorem ValueFlag.eq_longName {flag : ValueFlag} {name : String}
    (named : name ∈ (FlagMeaning.valued flag).names) (isLong : IsLong name) :
    name = flag.longName := by
  have table : ∀ name ∈ (FlagMeaning.valued flag).names,
      ['-', '-'].isPrefixOf name.toList = true → name = flag.longName := by
    cases flag <;> decide
  exact table name named (List.isPrefixOf_iff_prefix.mpr isLong)

/-! ### Equals signs -/

/-- Everything before the first equals sign. -/
theorem takeWhile_sign {front : List Char} (noSign : '=' ∉ front) {rest : List Char}
    (cut : ∀ next ∈ rest.head?, next = '=') : (front ++ rest).takeWhile (· != '=') = front := by
  apply Text.takeWhile_run
  · intro character member
    simpa using fun isSign : character = '=' => noSign (isSign ▸ member)
  · intro next isHead
    simp [cut next isHead]

theorem splitArgument_of_no_sign {argument : String} (noSign : '=' ∉ argument.toList) :
    splitArgument argument = (argument, none) := by
  have whole : argument.toList.takeWhile (· != '=') = argument.toList := by
    simpa using @takeWhile_sign _ noSign [] (by simp)
  simp [splitArgument, whole]

/-- A long name ends at the first equals sign, and the value is everything behind it. -/
theorem splitArgument_inline {name : String} (isLong : IsLong name) (noSign : '=' ∉ name.toList)
    (text : String) : splitArgument (name ++ "=" ++ text) = (name, some text) := by
  have characters : (name ++ "=" ++ text).toList = name.toList ++ '=' :: text.toList := by
    simp
  have flag : (name ++ "=" ++ text).toList.takeWhile (· != '=') = name.toList := by
    rw [characters]
    exact takeWhile_sign noSign (by simp)
  have dashes : ['-', '-'].isPrefixOf name.toList = true := List.isPrefixOf_iff_prefix.mpr isLong
  unfold splitArgument
  dsimp only
  rw [flag, characters]
  simp [dashes]

/-- An argument is cut behind a long name, or not at all. -/
private theorem splitArgument_cases (argument : String) :
    splitArgument argument = (argument, none) ∨
      ∃ name text, IsLong name ∧ '=' ∉ name.toList ∧ argument = name ++ "=" ++ text := by
  by_cases sign : '=' ∈ argument.toList
  · obtain ⟨front, rest, shape, noSign⟩ := List.eq_append_cons_of_mem sign
    have flag : argument.toList.takeWhile (· != '=') = front := by
      rw [shape]
      exact takeWhile_sign noSign (by simp)
    by_cases isLong : ['-', '-'] <+: front
    · refine .inr ⟨String.ofList front, String.ofList rest, by simpa [IsLong], by simpa, ?_⟩
      rw [← String.toList_inj]
      simp [shape]
    · have dashes : ['-', '-'].isPrefixOf front = false := by
        rw [← Bool.not_eq_true, List.isPrefixOf_iff_prefix]
        exact isLong
      unfold splitArgument
      dsimp only
      rw [flag]
      exact .inl (by simp [dashes])
  · exact .inl (splitArgument_of_no_sign sign)

/-- An argument names a flag: it is one of its names, or a long one with an equals sign and any
text behind it. -/
def FlagMeaning.NamedBy (meaning : FlagMeaning) (argument : String) : Prop :=
  argument ∈ meaning.names ∨
    ∃ name ∈ meaning.names, IsLong name ∧ ∃ text, argument = name ++ "=" ++ text

private theorem flagMeaning?_splitArgument_iff {argument : String} {meaning : FlagMeaning} :
    flagMeaning? (splitArgument argument).1 = some meaning ↔ meaning.NamedBy argument := by
  constructor
  · intro known
    rcases splitArgument_cases argument with whole | ⟨name, text, isLong, noSign, rfl⟩
    · rw [whole, flagMeaning?_eq_some_iff] at known
      exact .inl known
    · rw [splitArgument_inline isLong noSign, flagMeaning?_eq_some_iff] at known
      exact .inr ⟨name, known, isLong, text, rfl⟩
  · rintro (named | ⟨name, named, isLong, text, rfl⟩)
    · obtain ⟨known, _, noSign⟩ := FlagMeaning.of_mem_names named
      rw [splitArgument_of_no_sign noSign]
      exact known
    · obtain ⟨known, _, noSign⟩ := FlagMeaning.of_mem_names named
      rw [splitArgument_inline isLong noSign]
      exact known

private theorem exists_splitArgument_of_namedBy {argument : String} {meaning : FlagMeaning}
    (named : meaning.NamedBy argument) :
    ∃ flag inlineValue, splitArgument argument = (flag, inlineValue) ∧
      flagMeaning? flag = some meaning :=
  ⟨(splitArgument argument).1, (splitArgument argument).2, rfl,
    flagMeaning?_splitArgument_iff.mpr named⟩

private theorem looksLikeFlag_of_isLong {name : String} (isLong : IsLong name) :
    looksLikeFlag name = true := by
  obtain ⟨rest, shape⟩ := isLong
  simp [looksLikeFlag, ← shape]

theorem IsLong.append {name : String} (isLong : IsLong name) (text : String) :
    IsLong (name ++ text) := by
  rw [IsLong, String.toList_append]
  exact isLong.trans (List.prefix_append _ _)

theorem FlagMeaning.NamedBy.looksLikeFlag {meaning : FlagMeaning} {argument : String}
    (named : meaning.NamedBy argument) : looksLikeFlag argument = true := by
  rcases named with named | ⟨name, _, isLong, text, rfl⟩
  · exact (of_mem_names named).2.1
  · exact looksLikeFlag_of_isLong ((isLong.append _).append _)

/-- An argument that names no flag looks like one after the cut if it did before. -/
private theorem exists_splitArgument_of_unnamed {argument : String}
    (noFlag : ∀ meaning : FlagMeaning, ¬ meaning.NamedBy argument) :
    ∃ flag inlineValue, splitArgument argument = (flag, inlineValue) ∧ flagMeaning? flag = none ∧
      looksLikeFlag flag = looksLikeFlag argument := by
  refine ⟨(splitArgument argument).1, (splitArgument argument).2, rfl, ?_, ?_⟩
  · exact Option.eq_none_iff_forall_ne_some.mpr fun meaning known =>
      noFlag meaning (flagMeaning?_splitArgument_iff.mp known)
  · rcases splitArgument_cases argument with whole | ⟨name, text, isLong, noSign, rfl⟩
    · rw [whole]
    · rw [splitArgument_inline isLong noSign, looksLikeFlag_of_isLong isLong,
        looksLikeFlag_of_isLong ((isLong.append _).append _)]

/-! ### Items -/

/-- What an item of a command line asks for. -/
inductive Request where
  | input (path : String)
  | switch (setting : Switch)
  | value (flag : ValueFlag) (text : String)
  | help
  | version
  /-- An argument that looks like a flag and names none. -/
  | unknown (argument : String)
deriving DecidableEq, Repr

namespace Request

/-- The ways to write an item. Text behind the equals sign of a flag that takes no value is passed
over. -/
inductive Written : Request → List String → Prop where
  | input {path : String} (plain : looksLikeFlag path = false) : Written (.input path) [path]
  | switch {setting : Switch} {argument : String}
      (named : (FlagMeaning.switch setting).NamedBy argument) :
      Written (.switch setting) [argument]
  | apart {flag : ValueFlag} {name : String} (text : String)
      (named : name ∈ (FlagMeaning.valued flag).names) : Written (.value flag text) [name, text]
  | inline (flag : ValueFlag) (text : String) :
      Written (.value flag text) [flag.longName ++ "=" ++ text]
  | help {argument : String} (named : FlagMeaning.help.NamedBy argument) : Written .help [argument]
  | version {argument : String} (named : FlagMeaning.version.NamedBy argument) :
      Written .version [argument]
  | unknown {argument : String} (dashed : looksLikeFlag argument = true)
      (noFlag : ∀ meaning : FlagMeaning, ¬ meaning.NamedBy argument) :
      Written (.unknown argument) [argument]

/-- The result of an item that ends the reading. -/
def ending? : Request → Option (Except ArgumentError Command)
  | .help => some (.ok .help)
  | .version => some (.ok .version)
  | .unknown argument => some (.error (.unknownFlag argument))
  | .input _ | .switch _ | .value _ _ => none

def apply : Request → Options → Options
  | .input path, options => { options with inputs := options.inputs ++ [path] }
  | .switch setting, options => setting.apply options
  | .value flag text, options => flag.apply text options
  | .help, options | .version, options | .unknown _, options => options

/-- One item is read at a time, whatever follows it. -/
theorem Written.readArguments {request : Request} {arguments : List String}
    (written : request.Written arguments) (options : Options) (rest : List String) :
    readArguments options (arguments ++ rest) =
      request.ending?.getD (Transpiler.readArguments (request.apply options) rest) := by
  cases written with
  | @input path plain =>
      have unnamed : ∀ meaning : FlagMeaning, ¬ meaning.NamedBy path := fun meaning named => by
        simp [named.looksLikeFlag] at plain
      obtain ⟨flag, inlineValue, split, unknown, looks⟩ := exists_splitArgument_of_unnamed unnamed
      simp only [List.singleton_append, Transpiler.readArguments, split, unknown, looks, plain]
      rfl
  | switch named =>
      obtain ⟨flag, inlineValue, split, known⟩ := exists_splitArgument_of_namedBy named
      simp only [List.singleton_append, Transpiler.readArguments, split, known]
      rfl
  | apart text named =>
      obtain ⟨known, _, noSign⟩ := FlagMeaning.of_mem_names named
      simp only [List.cons_append, List.nil_append, Transpiler.readArguments,
        splitArgument_of_no_sign noSign, known]
      rfl
  | inline flag text =>
      obtain ⟨known, _, noSign⟩ := FlagMeaning.of_mem_names flag.longName_mem_names
      simp only [List.singleton_append, Transpiler.readArguments,
        splitArgument_inline flag.isLong_longName noSign, known]
      rfl
  | help named =>
      obtain ⟨flag, inlineValue, split, known⟩ := exists_splitArgument_of_namedBy named
      simp only [List.singleton_append, Transpiler.readArguments, split, known]
      rfl
  | version named =>
      obtain ⟨flag, inlineValue, split, known⟩ := exists_splitArgument_of_namedBy named
      simp only [List.singleton_append, Transpiler.readArguments, split, known]
      rfl
  | unknown dashed noFlag =>
      obtain ⟨flag, inlineValue, split, unknown, looks⟩ := exists_splitArgument_of_unnamed noFlag
      simp only [List.singleton_append, Transpiler.readArguments, split, unknown, looks, dashed]
      rfl

end Request

/-- An item of a command line: what it asks for and the arguments it is written with. -/
structure CommandItem where
  request : Request
  arguments : List String
  written : request.Written arguments

namespace CommandItem

/-- The command line that items are written as. -/
def line (items : List CommandItem) : List String :=
  items.flatMap arguments

/-- What items ask for, one after the other. -/
def requests (items : List CommandItem) : List Request :=
  items.map request

@[simp] theorem line_cons (item : CommandItem) (items : List CommandItem) :
    line (item :: items) = item.arguments ++ line items := rfl

@[simp] theorem requests_cons (item : CommandItem) (items : List CommandItem) :
    requests (item :: items) = item.request :: requests items := rfl

@[simp] theorem requests_append (first second : List CommandItem) :
    requests (first ++ second) = requests first ++ requests second :=
  List.map_append

/-- The first item that ends the reading decides; without one, all items are read. -/
private theorem readArguments_line (items : List CommandItem) (options : Options)
    (rest : List String) :
    readArguments options (line items ++ rest) =
      ((requests items).findSome? Request.ending?).getD
        (readArguments
          ((requests items).foldl (fun options request => request.apply options) options)
          rest) := by
  induction items generalizing options with
  | nil => rfl
  | cons item items inductionHypothesis =>
      rw [line_cons, List.append_assoc, item.written.readArguments, inductionHypothesis,
        requests_cons, List.findSome?_cons, List.foldl_cons]
      cases item.request.ending? <;> rfl

/-! ### Every command line is a sequence of items -/

/-- A command line begins with an item, unless a flag stands alone at its end and lacks its
value. -/
private theorem exists_first (argument : String) (rest : List String) :
    (∃ (item : CommandItem) (others : List String),
      argument :: rest = item.arguments ++ others ∧ others.length ≤ rest.length) ∨
    rest = [] ∧ ∃ flag : ValueFlag, argument ∈ (FlagMeaning.valued flag).names := by
  have single {request : Request} (written : request.Written [argument]) :
      ∃ (item : CommandItem) (others : List String),
        argument :: rest = item.arguments ++ others ∧ others.length ≤ rest.length :=
    ⟨⟨request, [argument], written⟩, rest, rfl, Nat.le_refl _⟩
  by_cases isFlag : ∃ meaning : FlagMeaning, meaning.NamedBy argument
  · obtain ⟨meaning, named⟩ := isFlag
    cases meaning with
    | help => exact .inl (single (.help named))
    | version => exact .inl (single (.version named))
    | switch setting => exact .inl (single (.switch named))
    | valued flag =>
        rcases named with named | ⟨name, named, isLong, text, rfl⟩
        · cases rest with
          | nil => exact .inr ⟨rfl, flag, named⟩
          | cons text others => exact .inl ⟨⟨_, _, .apart text named⟩, others, rfl, by simp⟩
        · obtain rfl := ValueFlag.eq_longName named isLong
          exact .inl (single (.inline flag text))
  · cases looks : looksLikeFlag argument with
    | true => exact .inl (single (.unknown looks (not_exists.mp isFlag)))
    | false => exact .inl (single (.input looks))

private theorem exists_line (arguments : List String) :
    ∃ (items : List CommandItem) (rest : List String), arguments = line items ++ rest ∧
      (rest = [] ∨
        ∃ flag : ValueFlag, ∃ name ∈ (FlagMeaning.valued flag).names, rest = [name]) := by
  induction size : arguments.length using Nat.strongRecOn generalizing arguments with
  | ind size inductionHypothesis =>
      cases arguments with
      | nil => exact ⟨[], [], rfl, .inl rfl⟩
      | cons argument rest =>
          rcases exists_first argument rest with
            ⟨item, others, shape, shorter⟩ | ⟨rfl, flag, named⟩
          · obtain ⟨items, left, split, ends⟩ :=
              inductionHypothesis others.length (by simp at size; omega) others rfl
            exact ⟨item :: items, left, by rw [shape, split]; simp, ends⟩
          · exact ⟨[], [argument], rfl, .inr ⟨flag, argument, named, rfl⟩⟩

end CommandItem

/-! ### What items amount to -/

namespace Request

def input? : Request → Option String
  | .input path => some path
  | _ => none

/-- The value that an item gives to a flag. -/
def value? (flag : ValueFlag) : Request → Option String
  | .value other text => if other = flag then some text else none
  | _ => none

/-- Two items compete when both are inputs or both give a value to the same flag. -/
inductive Competes : Request → Request → Prop where
  | inputs (first second : String) : Competes (.input first) (.input second)
  | values (flag : ValueFlag) (first second : String) :
      Competes (.value flag first) (.value flag second)

end Request

/-- The options that items ask for together: the inputs in their order, each flag that is given
somewhere, and of the values of a flag the last. -/
def Options.ofRequests (requests : List Request) : Options where
  inputs := requests.filterMap Request.input?
  listTree := requests.contains (.switch .listTree)
  debug := requests.contains (.switch .debug)
  format := (requests.filterMap (Request.value? .format)).getLast?
  output := (requests.filterMap (Request.value? .output)).getLast?
  verbose := requests.contains (.switch .verbose)
  keepGoing := requests.contains (.switch .keepGoing)
  escapeStrings := requests.contains (.switch .escapeStrings)

/-- The command that options stand for: there must be an input. -/
def Options.command (options : Options) : Except ArgumentError Command :=
  if options.inputs.isEmpty then .error .noInputs else .ok (.transpile options)

namespace Request

private theorem apply_ofRequests (before : List Request) (request : Request) :
    request.apply (Options.ofRequests before) = Options.ofRequests (before ++ [request]) := by
  cases request with
  | input path => simp [apply, Options.ofRequests, input?, value?]
  | switch setting =>
      cases setting <;> simp [apply, Switch.apply, Options.ofRequests, input?, value?]
  | value flag text =>
      cases flag <;> simp [apply, ValueFlag.apply, Options.ofRequests, input?, value?]
  | help => simp [apply, Options.ofRequests, input?, value?]
  | version => simp [apply, Options.ofRequests, input?, value?]
  | unknown argument => simp [apply, Options.ofRequests, input?, value?]

theorem foldl_apply (before requests : List Request) :
    requests.foldl (fun options request => request.apply options) (Options.ofRequests before) =
      Options.ofRequests (before ++ requests) := by
  induction requests generalizing before with
  | nil => simp
  | cons request requests inductionHypothesis =>
      rw [List.foldl_cons, apply_ofRequests, inductionHypothesis, List.append_assoc,
        List.singleton_append]

/-- Items that do not compete may change places. -/
private theorem apply_comm {first second : Request} (independent : ¬ first.Competes second)
    (options : Options) :
    second.apply (first.apply options) = first.apply (second.apply options) := by
  cases first with
  | input path =>
      cases second with
      | input other => exact absurd (.inputs path other) independent
      | switch setting => cases setting <;> rfl
      | value flag text => cases flag <;> rfl
      | help | version | unknown => rfl
  | switch setting =>
      cases second with
      | switch other => cases setting <;> cases other <;> rfl
      | value flag text => cases setting <;> cases flag <;> rfl
      | input | help | version | unknown => cases setting <;> rfl
  | value flag text =>
      cases second with
      | switch setting => cases flag <;> cases setting <;> rfl
      | value other second =>
          cases flag <;> cases other
          case format.format => exact absurd (.values _ _ _) independent
          case output.output => exact absurd (.values _ _ _) independent
          all_goals rfl
      | input | help | version | unknown => cases flag <;> rfl
  | help | version | unknown => rfl

theorem ofRequests_exchange {first second : Request} (independent : ¬ first.Competes second)
    (before after : List Request) :
    Options.ofRequests (before ++ first :: second :: after) =
      Options.ofRequests (before ++ second :: first :: after) := by
  rw [← foldl_apply before, ← foldl_apply before, List.foldl_cons, List.foldl_cons, List.foldl_cons,
    List.foldl_cons, apply_comm independent]

end Request

namespace CommandItem

/-- Without an item that ends the reading, the result is what the items amount to. -/
private theorem ofArguments_line {items : List CommandItem}
    (noEnding : ∀ item ∈ items, item.request.ending? = none) :
    Command.ofArguments (line items) = (Options.ofRequests (requests items)).command := by
  have read := readArguments_line items (.ofRequests []) []
  have readOn : (requests items).findSome? Request.ending? = none := by
    simpa [requests] using noEnding
  rw [List.append_nil, readOn, Request.foldl_apply] at read
  exact read

/-- Two ways to write an item in the same place give the same result. -/
private theorem ofArguments_rewritten (items : List CommandItem) {request : Request}
    {first second : List String} (firstWritten : request.Written first)
    (secondWritten : request.Written second) (after : List String) :
    Command.ofArguments (line items ++ (first ++ after)) =
      Command.ofArguments (line items ++ (second ++ after)) := by
  rw [Command.ofArguments, Command.ofArguments, readArguments_line, readArguments_line,
    firstWritten.readArguments, secondWritten.readArguments]

end CommandItem

open CommandItem in
/-- Every command line is a sequence of items, but for a flag at its end that lacks its value. A
value may be written behind its flag's long name or as the next argument. Where no item asks for
help or the version or is unknown, inputs stay in their order and the last value of a flag counts,
and items that do not compete may change places. -/
theorem Command.ofArguments_spelling_and_order :
    (∀ arguments : List String, ∃ (items : List CommandItem) (rest : List String),
      arguments = line items ++ rest ∧
        (rest = [] ∨
          ∃ flag : ValueFlag, ∃ name ∈ (FlagMeaning.valued flag).names, rest = [name])) ∧
    (∀ (items : List CommandItem) (flag : ValueFlag) (text : String) (after : List String),
      ∀ name ∈ (FlagMeaning.valued flag).names,
        ofArguments (line items ++ (flag.longName ++ "=" ++ text) :: after) =
          ofArguments (line items ++ name :: text :: after)) ∧
    (∀ items : List CommandItem, (∀ item ∈ items, item.request.ending? = none) →
      ofArguments (line items) = (Options.ofRequests (requests items)).command) ∧
    ∀ (before after : List CommandItem) (first second : CommandItem),
      (∀ item ∈ before ++ first :: second :: after, item.request.ending? = none) →
      ¬ first.request.Competes second.request →
        ofArguments (line (before ++ first :: second :: after)) =
          ofArguments (line (before ++ second :: first :: after)) := by
  refine ⟨exists_line, ?_, fun items => ofArguments_line, ?_⟩
  · intro items flag text after name named
    exact ofArguments_rewritten items (.inline flag text) (.apart text named) after
  · intro before after first second noEnding independent
    have others : ∀ item ∈ before ++ second :: first :: after, item.request.ending? = none :=
      fun item member => noEnding item (by simpa [or_left_comm] using member)
    rw [ofArguments_line noEnding, ofArguments_line others]
    simp only [requests_append, requests_cons, Request.ofRequests_exchange independent]

/-- A value with an equals sign of its own, and two items that change places. -/
theorem Command.ofArguments_spelling_and_order_of_output :
    ofArguments ["main.py", "--output=a=b.cpp", "--ast"] =
        ofArguments ["main.py", "-o", "a=b.cpp", "--ast"] ∧
      ofArguments ["main.py", "-o", "a=b.cpp", "--ast"] =
        ofArguments ["main.py", "--ast", "-o", "a=b.cpp"] ∧
      ofArguments ["-f", "exe", "main.py", "-f", "cpp"] =
        .ok (.transpile { inputs := ["main.py"], format := some "cpp" }) := by
  obtain ⟨_, spelled, amounts, exchanged⟩ := ofArguments_spelling_and_order
  have input : Request.Written (.input "main.py") ["main.py"] := .input (by decide)
  have output : Request.Written (.value .output "a=b.cpp") ["-o", "a=b.cpp"] :=
    .apart _ (by decide)
  have listTree : Request.Written (.switch .listTree) ["--ast"] := .switch (.inl (by decide))
  have format (text : String) : Request.Written (.value .format text) ["-f", text] :=
    .apart text (by decide)
  refine ⟨?_, ?_, ?_⟩
  · exact spelled [⟨_, _, input⟩] .output "a=b.cpp" ["--ast"] "-o" (by decide)
  · exact exchanged [⟨_, _, input⟩] [] ⟨_, _, output⟩ ⟨_, _, listTree⟩
      (by simp [Request.ending?]) (fun competes => by cases competes)
  · exact amounts [⟨_, _, format "exe"⟩, ⟨_, _, input⟩, ⟨_, _, format "cpp"⟩]
      (by simp [Request.ending?])

end Transpiler
