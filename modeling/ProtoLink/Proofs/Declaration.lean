import ProtoLink.Batch.Opening
import ProtoLink.Proofs.Table

/-! What files declare, and what registering makes of it: the symbols are the declared names in order, each
under the file that declares it last, and each declaration of a name that is known by then is reported. -/
namespace ProtoLink

/-! A type is found in a scope by a chain: the names of the messages around it, outermost first, and its own name. A
map entry is no type, and what is declared inside one is not found at all. -/

namespace Message

mutual

/-- The chains of the types that are declared inside a message. -/
def chains : Message → List (List String)
  | ⟨_, _, messages, enums, _⟩ => enums.map (fun e => [e.name]) ++ allChains messages

/-- The chains of the messages of a scope and of the types inside them. -/
def allChains : List Message → List (List String)
  | [] => []
  | m :: ms =>
    if m.isMapEntry then allChains ms
    else [m.name] :: (chains m).map (m.name :: ·) ++ allChains ms

end

mutual

/-- The map entries inside a message with their chains: its own ones come before those of its messages. -/
def entries : Message → List (List String × Message)
  | ⟨_, _, messages, _, _⟩ =>
    (messages.filter isMapEntry).map (fun m => ([m.name], m)) ++ allEntries messages

/-- The map entries inside the messages of a scope. -/
def allEntries : List Message → List (List String × Message)
  | [] => []
  | m :: ms =>
    if m.isMapEntry then allEntries ms
    else (entries m).map (fun e => (m.name :: e.1, e.2)) ++ allEntries ms

end

end Message

/-- The dotted name of what is found in a scope by a chain. -/
def nameAlong (scope : String) (chain : List String) : String := chain.foldl nameWithin scope

namespace ProtoFile

def chains (f : ProtoFile) : List (List String) :=
  f.enums.map (fun e => [e.name]) ++ Message.allChains f.messages

def entries (f : ProtoFile) : List (List String × Message) :=
  (f.messages.filter Message.isMapEntry).map (fun m => ([m.name], m)) ++ Message.allEntries f.messages

/-- The types of a file in the order of their declaration: the name that its scopes make, beside the file's path. -/
def registrations (f : ProtoFile) : List (String × String) :=
  f.chains.map fun chain => (nameAlong f.package chain, f.name)

/-- The map entries of a file in the order in which they are entered: the name that its scopes make, beside each. -/
def entryRegistrations (f : ProtoFile) : List (String × Message) :=
  f.entries.map fun e => (nameAlong f.package e.1, e.2)

/-- The types of a file in the order of their declaration: the key of each name beside the file's path. -/
def declarations (f : ProtoFile) : List (String × String) :=
  f.chains.map fun chain => (unrooted (nameAlong f.package chain), f.name)

/-- The map entries of a file in the order in which they are entered: the key of each name beside the message. -/
def mapEntries (f : ProtoFile) : List (String × Message) :=
  f.entries.map fun e => (unrooted (nameAlong f.package e.1), e.2)

theorem declarations_eq_map (files : List ProtoFile) :
    files.flatMap declarations = (files.flatMap registrations).map fun d => (unrooted d.1, d.2) := by
  simp only [List.map_flatMap, registrations, List.map_map]
  rfl

theorem mapEntries_eq_map (files : List ProtoFile) :
    files.flatMap mapEntries = (files.flatMap entryRegistrations).map fun e => (unrooted e.1, e.2) := by
  simp only [List.map_flatMap, entryRegistrations, List.map_map]
  rfl

end ProtoFile

namespace Batch

/-- What is found amiss with declarations that are made one after the other. -/
def redeclared (symbols : NameTable String) : List (String × String) → List Diagnostic.Finding
  | [] => []
  | (name, path) :: ds =>
    let later := redeclared (symbols.insert name path) ds
    match symbols.get? name with
    | none => later
    | some previous => duplicate name previous path :: later

theorem redeclared_append (symbols : NameTable String) (ds es : List (String × String)) :
    redeclared symbols (ds ++ es) = redeclared symbols ds ++ redeclared (symbols.insertAll ds) es := by
  induction ds generalizing symbols with
  | nil => rfl
  | cons d ds ih =>
    have hrun : symbols.insertAll (d :: ds) = (symbols.insert d.1 d.2).insertAll ds := rfl
    rw [List.cons_append, redeclared, redeclared, ih, hrun]
    cases symbols.get? d.1 <;> rfl

variable (b : Batch) (path scope : String)

/-- Declares one type after the other. -/
def declareAll (names : List String) : Batch := names.foldl (fun b name => b.declare path name) b

/-- Enters one map entry after the other. -/
def enterAll (entries : List (String × Message)) : Batch :=
  { b with mapEntries := b.mapEntries.insertAll entries }

/-- Declares and enters what the chains lead to from a scope. -/
def takeUp (chains : List (List String)) (entries : List (List String × Message)) : Batch :=
  (b.declareAll path (chains.map (nameAlong scope))).enterAll
    (entries.map fun e => (nameAlong scope e.1, e.2))

@[simp] theorem declareAll_nil : b.declareAll path [] = b := rfl

@[simp] theorem enterAll_nil : b.enterAll [] = b := rfl

theorem declareAll_append (names names' : List String) :
    b.declareAll path (names ++ names') = (b.declareAll path names).declareAll path names' :=
  List.foldl_append

theorem enterAll_append (es fs : List (String × Message)) :
    b.enterAll (es ++ fs) = (b.enterAll es).enterAll fs := by
  simp [enterAll, NameTable.insertAll_append]

/-- A declaration does not look at the map entries. -/
theorem declareAll_enterAll (es : List (String × Message)) (names : List String) :
    (b.enterAll es).declareAll path names = (b.declareAll path names).enterAll es := by
  induction names generalizing b with
  | nil => rfl
  | cons name names ih => exact ih (b.declare path name)

/-- Declarations change the symbols and the log, and nothing else. -/
theorem declareAll_eq (names : List String) :
    b.declareAll path names =
      { b with
        symbols := b.symbols.insertAll (names.map fun name => (name, path))
        log := b.log.reportAll (redeclared b.symbols (names.map fun name => (name, path))) } := by
  induction names generalizing b with
  | nil => rfl
  | cons name names ih =>
    have hstep : b.declareAll path (name :: names) = (b.declare path name).declareAll path names := rfl
    rw [hstep, ih]
    simp only [List.map_cons, redeclared, declare]
    cases b.symbols.get? name <;> rfl

theorem declareEnums_eq (enums : List Enumeration) :
    b.declareEnums path scope enums = b.takeUp path scope (enums.map fun e => [e.name]) [] := by
  simp only [takeUp, declareAll, List.foldl_map, List.map_nil, enterAll_nil]
  rfl

theorem enterMapEntries_eq (messages : List Message) :
    b.enterMapEntries scope messages =
      b.takeUp path scope [] ((messages.filter Message.isMapEntry).map fun m => ([m.name], m)) := by
  simp only [takeUp, enterAll, NameTable.insertAll, List.foldl_map, List.map_nil, declareAll_nil]
  rfl

theorem declare_eq (name : String) :
    b.declare path (nameWithin scope name) = b.takeUp path scope [[name]] [] := rfl

theorem takeUp_takeUp (chains chains' : List (List String)) (es es' : List (List String × Message)) :
    (b.takeUp path scope chains es).takeUp path scope chains' es' =
      b.takeUp path scope (chains ++ chains') (es ++ es') := by
  simp only [takeUp, declareAll_enterAll, List.map_append, declareAll_append, enterAll_append]

/-- Inside a message, each chain starts one message further out. -/
theorem takeUp_nameWithin (name : String) (chains : List (List String))
    (es : List (List String × Message)) :
    b.takeUp path (nameWithin scope name) chains es =
      b.takeUp path scope (chains.map (name :: ·)) (es.map fun e => (name :: e.1, e.2)) := by
  simp only [takeUp, List.map_map]
  rfl

/-- Every scope begins with its enumerations and its map entries. -/
theorem takeUp_scope (enums : List Enumeration) (messages : List Message) (chains : List (List String))
    (es : List (List String × Message)) :
    ((b.declareEnums path scope enums).enterMapEntries scope messages).takeUp path scope chains es =
      b.takeUp path scope (enums.map (fun e => [e.name]) ++ chains)
        ((messages.filter Message.isMapEntry).map (fun m => ([m.name], m)) ++ es) := by
  rw [declareEnums_eq, enterMapEntries_eq _ path, takeUp_takeUp, takeUp_takeUp]
  rfl

mutual

/-- Registering the inside of a message is taking up its chains. -/
theorem registerWithin_fst (scope : String) (b : Batch) :
    (m : Message) → (registerWithin path scope b m).1 = b.takeUp path scope m.chains m.entries
  | ⟨_, _, messages, enums, _⟩ => by
    simp only [registerWithin, Message.chains, Message.entries]
    rw [registerMessages_fst scope _ messages, takeUp_scope]

theorem registerMessages_fst (scope : String) (b : Batch) :
    (ms : List Message) → (registerMessages path scope b ms).1 =
      b.takeUp path scope (Message.allChains ms) (Message.allEntries ms)
  | [] => rfl
  | m :: ms => by
    simp only [registerMessages, Message.allChains, Message.allEntries]
    split
    · exact registerMessages_fst scope b ms
    · rw [registerMessages_fst scope _ ms, registerWithin_fst _ _ m, declare_eq, takeUp_nameWithin,
        takeUp_takeUp, takeUp_takeUp]
      rfl

end

/-- What one file adds to a batch. -/
theorem registerAs_fst (f : ProtoFile) :
    (b.registerAs path scope f).1 =
      ({ b with packages := b.packages ++ [f.package] }).takeUp path scope f.chains f.entries := by
  simp only [registerAs, ProtoFile.chains, ProtoFile.entries]
  rw [registerMessages_fst, takeUp_scope]

theorem register_fst (f : ProtoFile) :
    (b.register f).1 =
      { b with
        symbols := b.symbols.insertAll f.registrations
        mapEntries := b.mapEntries.insertAll f.entryRegistrations
        packages := b.packages ++ [f.package]
        log := b.log.reportAll (redeclared b.symbols f.registrations) } := by
  rw [register, registerAs_fst, takeUp, declareAll_eq, List.map_map]
  rfl

/-- The whole of a batch after any number of files. -/
theorem registerAll_fst (files : List ProtoFile) :
    (b.registerAll files).1 =
      { b with
        symbols := b.symbols.insertAll (files.flatMap ProtoFile.registrations)
        mapEntries := b.mapEntries.insertAll (files.flatMap ProtoFile.entryRegistrations)
        packages := b.packages ++ files.map ProtoFile.package
        log := b.log.reportAll (redeclared b.symbols (files.flatMap ProtoFile.registrations)) } := by
  induction files generalizing b with
  | nil => simp [registerAll, NameTable.insertAll, redeclared, Log.reportAll]
  | cons f files ih =>
    have hstep : (b.registerAll (f :: files)).1 = ((b.register f).1.registerAll files).1 := rfl
    rw [hstep, ih, register_fst]
    simp only [List.flatMap_cons, NameTable.insertAll_append, redeclared_append, Log.reportAll_append,
      List.map_cons, List.append_assoc, List.singleton_append]

theorem symbols_registerAll (files : List ProtoFile) :
    (b.registerAll files).1.symbols.table =
      b.symbols.table.insertAll (files.flatMap ProtoFile.declarations) := by
  rw [registerAll_fst, NameTable.table_insertAll, ProtoFile.declarations_eq_map]

theorem mapEntries_registerAll (files : List ProtoFile) :
    (b.registerAll files).1.mapEntries.table =
      b.mapEntries.table.insertAll (files.flatMap ProtoFile.mapEntries) := by
  rw [registerAll_fst, NameTable.table_insertAll, ProtoFile.mapEntries_eq_map]

theorem packages_registerAll (files : List ProtoFile) :
    (b.registerAll files).1.packages = b.packages ++ files.map ProtoFile.package := by
  rw [registerAll_fst]

theorem settings_registerAll (files : List ProtoFile) : (b.registerAll files).1.settings = b.settings := by
  rw [registerAll_fst]

theorem files_registerAll (files : List ProtoFile) : (b.registerAll files).1.files = b.files := by
  rw [registerAll_fst]

/-- The listed names are the old ones and then the new ones in the order of their first declaration. The path beside
a name is that of its last declaration, and an old one stays only where there is none. -/
theorem registered_symbols (files : List ProtoFile) :
    let before := b.symbols
    let after := (b.registerAll files).1.symbols
    let declared := files.flatMap ProtoFile.declarations
    after.names = before.names ++ ((declared.map Prod.fst).filter (· ∉ before.names)).eraseDups ∧
      after.names.Nodup ∧
      (∀ name, after.table.get? name =
        ((declared.filter fun d => d.1 = name).getLast?.map Prod.snd).or (before.table.get? name)) ∧
      (b.registerAll files).1.packages = b.packages ++ files.map ProtoFile.package := by
  intro before after declared
  have htable : after.table = before.table.insertAll declared := symbols_registerAll b files
  refine ⟨?_, after.table.keys_nodup, ?_, packages_registerAll b files⟩
  · rw [NameTable.names, htable]
    exact before.table.keys_insertAll declared
  · intro name
    rw [htable]
    exact before.table.get?_insertAll declared name

end Batch
end ProtoLink
