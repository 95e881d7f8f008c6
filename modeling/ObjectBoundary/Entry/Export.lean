import ObjectBoundary.Entry.Call

/-!
# Exported entry points

The name under which each entry point is exported, the kinds of its parameters in order, and the
call that it makes of its arguments.
-/

namespace ObjectBoundary

/-- What an entry point takes at one place. -/
inductive ParameterKind where
  | handle
  | text
  | wire
  | bool
  | i32
  | size
  /-- A place for an output, which may be missing. -/
  | output
  /-- A list of boundary values, which may be missing. -/
  | wires
  deriving DecidableEq, Repr, Inhabited

/-- What a caller passes at one place. -/
inductive Argument where
  | handle (value : Handle)
  | text (value : TextArgument)
  | wire (value : Wire)
  | bool (value : Bool)
  | i32 (value : Int32)
  | size (value : Nat)
  | output (wanted : Bool)
  | wires (values : Option (List Wire))
  deriving DecidableEq, Repr, Inhabited

namespace ParameterKind

def ofKind : Kind → ParameterKind
  | .bool => .bool
  | .i32 => .i32
  | .handle => .handle
  | _ => .wire

end ParameterKind

namespace Argument

def toWire : Argument → Wire
  | .handle h => .handle h
  | .wire w => w
  | .bool b => .bool b
  | .i32 n => .i32 n
  | _ => .void

end Argument

/-- The names of the entry points that make, share and release the objects of an interface. -/
structure Lifecycle where
  create : String
  addRef : String
  release : String

def Role.lifecycle : Role → Lifecycle
  | .task => ⟨"ITask_Create", "ITask_AddRef", "ITask_Release"⟩
  | .project => ⟨"IProject_Create", "IProject_AddRef", "IProject_Release"⟩
  | .manager => ⟨"ITaskManager_Create", "ITaskManager_AddRef", "ITaskManager_Release"⟩

structure Export where
  symbol : String
  parameters : List ParameterKind
  /-- The call with given arguments, when these are of the right kinds. -/
  call : List Argument → Option Call

namespace Export

def plain (symbol : String) (call : Call) : Export := ⟨symbol, [], fun _ => some call⟩

def onHandle (symbol : String) (call : Handle → Call) : Export :=
  ⟨symbol, [.handle], fun
    | [.handle h] => some (call h)
    | _ => none⟩

def onText (symbol : String) (call : TextArgument → Call) : Export :=
  ⟨symbol, [.text], fun
    | [.text t] => some (call t)
    | _ => none⟩

def onWire (symbol : String) (call : Handle → Wire → Call) : Export :=
  ⟨symbol, [.handle, .wire], fun
    | [.handle h, .wire w] => some (call h w)
    | _ => none⟩

/-- The entry points that concern no particular kind of object. -/
def general : List Export :=
  [plain "idlbridge_runtime_init" .startUp, plain "idlbridge_runtime_cleanup" .cleanUp,
    plain "idlbridge_live_handles" .liveHandles,
    onText "idlbridge_create" .create, onHandle "idlbridge_add_ref" .addRef,
    onHandle "idlbridge_release" .release, onHandle "idlbridge_refcount" .refcount,
    plain "idlbridge_get_last_error" .lastErrorText,
    plain "idlbridge_last_error_code" .lastErrorCode,
    plain "idlbridge_clear_last_error" .clearLastError,
    ⟨"idlbridge_get_property", [.handle, .text, .output], fun
      | [.handle h, .text name, .output wanted] => some (.getProperty h name wanted)
      | _ => none⟩,
    ⟨"idlbridge_set_property", [.handle, .text, .wire], fun
      | [.handle h, .text name, .wire w] => some (.setProperty h name w)
      | _ => none⟩,
    ⟨"idlbridge_invoke", [.handle, .text, .wires, .size, .output], fun
      | [.handle h, .text name, .wires ws, .size count, .output wanted] =>
        some (.invoke h name ws count wanted)
      | _ => none⟩]

def ofStrings : List Export :=
  [onText "idlbridge_string_create" .createText, onHandle "idlbridge_string_value" .textValue,
    onHandle "idlbridge_string_length" .textLength, onHandle "idlbridge_string_copy" .copyText,
    onHandle "idlbridge_string_release" .releaseText]

def itemOf (symbol : String) : Export :=
  ⟨symbol, [.handle, .size, .output], fun
    | [.handle h, .size index, .output wanted] => some (.item h index wanted)
    | _ => none⟩

def nextEntryOf (symbol : String) : Export :=
  ⟨symbol, [.handle, .output, .output], fun
    | [.handle h, .output key, .output value] => some (.nextEntry h key value)
    | _ => none⟩

def nextMemberOf (symbol : String) : Export :=
  ⟨symbol, [.handle, .output], fun
    | [.handle h, .output wanted] => some (.nextMember h wanted)
    | _ => none⟩

def ofCollections : List Export :=
  [plain "idlbridge_array_new" (.newCollection .array), onWire "idlbridge_array_push" .push,
    onHandle "idlbridge_array_count" (.countItems .array), itemOf "idlbridge_array_item",
    onHandle "idlbridge_array_release" (.releaseCollection .array),
    plain "idlbridge_dict_new" (.newCollection .dict),
    ⟨"idlbridge_dict_insert", [.handle, .wire, .wire], fun
      | [.handle h, .wire key, .wire value] => some (.insertEntry h key value)
      | _ => none⟩,
    onHandle "idlbridge_dict_count" (.countItems .dict), nextEntryOf "idlbridge_dict_next",
    onHandle "idlbridge_dict_reset" (.reset .dict),
    onHandle "idlbridge_dict_release" (.releaseCollection .dict),
    plain "idlbridge_set_new" (.newCollection .set), onWire "idlbridge_set_insert" .insertMember,
    onHandle "idlbridge_set_count" (.countItems .set), nextMemberOf "idlbridge_set_next",
    onHandle "idlbridge_set_reset" (.reset .set),
    onHandle "idlbridge_set_release" (.releaseCollection .set)]

/-- The entry points that the namespace of the task model has once. -/
def ofSpace : List Export :=
  [plain "TaskManager_GetLastError" .lastErrorText,
    plain "TaskManager_ClearError" .clearLastError,
    onHandle "TaskManagerArray_Count" (.countItems .array), itemOf "TaskManagerArray_Item",
    onHandle "TaskManagerArray_Release" (.releaseCollection .array),
    onHandle "TaskManagerDict_Count" (.countItems .dict), nextEntryOf "TaskManagerDict_Next",
    onHandle "TaskManagerDict_Reset" (.reset .dict),
    onHandle "TaskManagerDict_Release" (.releaseCollection .dict),
    onHandle "TaskManagerSet_Count" (.countItems .set), nextMemberOf "TaskManagerSet_Next",
    onHandle "TaskManagerSet_Reset" (.reset .set),
    onHandle "TaskManagerSet_Release" (.releaseCollection .set)]

def ofRole (role : Role) : List Export :=
  [plain role.lifecycle.create (.createAs role), onHandle role.lifecycle.addRef (.addRefAs role),
    onHandle role.lifecycle.release (.releaseAs role)]

def ofTags : List Export :=
  [onHandle "ITask_Gettags_Count" .tagCount,
    ⟨"ITask_Gettags_Item", [.handle, .size], fun
      | [.handle h, .size index] => some (.tagItem h index)
      | _ => none⟩,
    onHandle "ITask_Settags_Clear" .clearTags,
    ⟨"ITask_Settags_Add", [.handle, .handle], fun
      | [.handle h, .handle value] => some (.addTag h value)
      | _ => none⟩]

def ofBinding (b : Binding) : Export :=
  ⟨b.symbol, .handle :: b.parameters.map .ofKind, fun
    | .handle h :: arguments => some (.member b h (arguments.map Argument.toWire))
    | _ => none⟩

def all : List Export :=
  general ++ ofStrings ++ ofCollections ++ ofSpace ++ Role.all.flatMap ofRole ++ ofTags ++
    Binding.all.map ofBinding

def ofSymbol? (symbol : String) : Option Export := all.find? (·.symbol == symbol)

/-- The call that an entry point makes of arguments. -/
def callOf? (symbol : String) (arguments : List Argument) : Option Call :=
  (ofSymbol? symbol).bind (·.call arguments)

end Export

end ObjectBoundary
