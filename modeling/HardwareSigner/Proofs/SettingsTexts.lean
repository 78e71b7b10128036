import HardwareSigner.Proofs.PathText
import HardwareSigner.Settings
/-!
Settings are read as what their text was written from, and whatever is left out of the text is read
as its default.
-/

namespace HardwareSigner

namespace Json

/-- An object without the members whose names are not picked. -/
def pick (picked : String → Bool) : Json → Json
  | .object members => .object (members.filter fun member => picked member.1)
  | value => value

/-- Changes what stands under a name in an object. -/
def within (name : String) (change : Json → Json) : Json → Json
  | .object members =>
    .object (members.map fun member =>
      (member.1, if member.1 = name then change member.2 else member.2))
  | value => value

theorem Integral.pick {value : Json} (exact : value.Integral) (picked : String → Bool) :
    (value.pick picked).Integral := by
  cases value with
  | object members =>
      obtain ⟨-, children⟩ := exact
      refine ⟨nofun, fun child held => ?_⟩
      obtain ⟨member, kept, rfl⟩ := List.mem_map.mp held
      exact children member.2 (List.mem_map_of_mem (List.mem_of_mem_filter kept))
  | null | bool | number | string | array => exact exact

def pickOf {α : Type} (picked : String → Bool) (name : String) (x : α) : Option α :=
  if picked name then some x else none

theorem getD_pickOf {α : Type} (picked : String → Bool) (name : String) (x d : α) :
    (pickOf picked name x).getD d = if picked name then x else d := by
  unfold pickOf
  split <;> rfl

/-- A member that is there only if it was picked; `put` says what to make of either. -/
theorem Shape.readMembers_picked {ρ σ β : Type} {slots : List (Slot ρ σ)} {name : String}
    {get : σ → Option β} {set : β → σ → σ} {d : Decoder ρ β} {s : σ} {depth : Nat} {value : Json}
    {x : β} (put : Option β → σ → σ)
    (known : slots.find? (·.name = name) = some (.of name get set d)) (unset : get s = none)
    (skipped : put none s = s) (put_some : put (some x) s = set x s)
    (read : d depth value.toNode = .ok x) (picked : String → Bool)
    (members : List (String × Json)) :
    readMembers slots depth
        (memberNodes (((name, value) :: members).filter fun member => picked member.1)) s =
      readMembers slots depth (memberNodes (members.filter fun member => picked member.1))
        (put (pickOf picked name x) s) := by
  rw [List.filter_cons, pickOf]
  split
  · rw [memberNodes, readMembers_member known unset read, put_some]
  · rw [skipped]

end Json

open Json (Decoder Shape getD_pickOf memberNodes nestingLimit)

section
variable {depth : Nat}

theorem Path.toJson_toNode (path : Path) :
    Path.decoder Refusal.path depth path.toJson.toNode = .ok path := by
  rw [Path.decoder, Path.toJson, Decoder.string_toNode]
  simp only [Path.parse_ok_iff.mpr (Path.denotes_display path)]

theorem Path.integral_toJson (path : Path) : path.toJson.Integral := by
  constructor
  · rintro x ⟨⟩
  · rintro child ⟨⟩

theorem bool_toNode (b : Bool) :
    Decoder.bool (ρ := Refusal) depth (Json.bool b).toNode = .ok b := by
  rw [Json.toNode, Decoder.bool]

theorem integer_toNode (fits : Int → Bool) {z : Int} (range : -2 ^ 63 ≤ z ∧ z < 2 ^ 64)
    (fit : fits z = true) : Decoder.integer (ρ := Refusal) fits depth
      (Json.number (.integer z range)).toNode = .ok z := by
  rw [Json.toNode_integer, Decoder.integer, Json.toNumber?_ofInt range, Option.bind_some]
  simp only [Json.Number.toInt?, fit, if_true]

namespace SessionSettings

/-- What is picked is kept, and the rest has its default. -/
def restored (picked : String → Bool) (s : SessionSettings) : SessionSettings :=
  ⟨if picked "passphrase" then s.passphrase else default.passphrase,
   if picked "pin_derivations" then s.pinDerivations else default.pinDerivations⟩

theorem pick_toNode (s : SessionSettings) (picked : String → Bool) (room : 1 < depth) :
    shape.decoder depth (s.toJson.pick picked).toNode = .ok (s.restored picked) := by
  rw [toJson, Json.pick, Json.toNode, Shape.decoder, if_pos room,
    Shape.readMembers_picked (fun o t => { t with passphrase := o }) rfl rfl rfl rfl
      (Decoder.string_toNode s.passphrase),
    Shape.readMembers_picked (fun o t => { t with pinDerivations := o }) rfl rfl rfl rfl
      (bool_toNode s.pinDerivations),
    List.filter_nil, memberNodes, Shape.readMembers]
  simp only [shape, getD_pickOf, restored]

theorem integral_toJson (s : SessionSettings) : s.toJson.Integral := by
  refine ⟨nofun, ?_⟩
  rintro value (_ | ⟨_, _ | ⟨_, ⟨⟩⟩⟩)
  · exact ⟨nofun, nofun⟩
  · exact ⟨nofun, nofun⟩

end SessionSettings

namespace HidSettings

theorem word16_toNode (n : UInt16) (range : n.toNat < 2 ^ 64) :
    word16 depth (Json.ofNat n.toNat range).toNode = .ok n := by
  have small : n.toNat < 2 ^ 16 := n.toNat_lt
  have fit : (0 ≤ (n.toNat : Int) && (n.toNat : Int) < 2 ^ 16) = true := by
    rw [Bool.and_eq_true, decide_eq_true_iff, decide_eq_true_iff]
    omega
  rw [word16, Json.ofNat, Json.Number.ofNat,
    integer_toNode (fun z => 0 ≤ z && z < 2 ^ 16) _ fit, Except.map, Int.toNat_natCast,
    UInt16.ofNat_toNat]

theorem signed32_toNode (n : Int32) (range : -2 ^ 63 ≤ n.toInt ∧ n.toInt < 2 ^ 64) :
    signed32 depth (Json.number (.integer n.toInt range)).toNode = .ok n := by
  have fit : (-2 ^ 31 ≤ n.toInt && n.toInt < 2 ^ 31) = true := by
    rw [Bool.and_eq_true, decide_eq_true_iff, decide_eq_true_iff]
    exact ⟨n.le_toInt, n.toInt_lt⟩
  rw [signed32, integer_toNode (fun z => -2 ^ 31 ≤ z && z < 2 ^ 31) range fit, Except.map,
    Int32.ofInt_toInt]

def restored (picked : String → Bool) (s : HidSettings) : HidSettings :=
  ⟨if picked "vendor_id" then s.vendorId else default.vendorId,
   if picked "usage_page" then s.usagePage else default.usagePage,
   if picked "read_timeout_ms" then s.readTimeoutMs else default.readTimeoutMs⟩

theorem pick_toNode (s : HidSettings) (picked : String → Bool) (room : 1 < depth) :
    shape.decoder depth (s.toJson.pick picked).toNode = .ok (s.restored picked) := by
  rw [toJson, Json.pick, Json.toNode, Shape.decoder, if_pos room,
    Shape.readMembers_picked (fun o t => { t with vendorId := o }) rfl rfl rfl rfl
      (word16_toNode s.vendorId _),
    Shape.readMembers_picked (fun o t => { t with usagePage := o }) rfl rfl rfl rfl
      (word16_toNode s.usagePage _),
    Shape.readMembers_picked (fun o t => { t with readTimeoutMs := o }) rfl rfl rfl rfl
      (signed32_toNode s.readTimeoutMs _),
    List.filter_nil, memberNodes, Shape.readMembers]
  simp only [shape, getD_pickOf, restored]

theorem integral_toJson (s : HidSettings) : s.toJson.Integral := by
  refine ⟨nofun, ?_⟩
  rintro value (_ | ⟨_, _ | ⟨_, _ | ⟨_, ⟨⟩⟩⟩⟩)
  · exact ⟨nofun, nofun⟩
  · exact ⟨nofun, nofun⟩
  · exact ⟨nofun, nofun⟩

end HidSettings

namespace Settings

/-- Settings as they are written, with only those members that are picked from the outermost
object, from the session's and from that of the devices. -/
def picked (outer session hid : String → Bool) (s : Settings) : Json :=
  ((s.toJson.within "session" (·.pick session)).within "hid" (·.pick hid)).pick outer

def restored (outer session hid : String → Bool) (s : Settings) : Settings :=
  ⟨if outer "hrp" then s.hrp else default.hrp,
   if outer "hd_path" then s.hdPath else default.hdPath,
   if outer "session" then s.session.restored session else default.session,
   if outer "hid" then s.hid.restored hid else default.hid⟩

variable (outer session hid : String → Bool) (s : Settings)

theorem picked_eq : s.picked outer session hid =
    (Json.object [("hrp", .string s.hrp), ("hd_path", s.hdPath.toJson),
      ("session", s.session.toJson.pick session), ("hid", s.hid.toJson.pick hid)]).pick outer := by
  rfl

theorem picked_toNode (room : 2 < depth) :
    shape.decoder depth (s.picked outer session hid).toNode =
      .ok (s.restored outer session hid) := by
  have inside : 1 < depth - 1 := by omega
  rw [picked_eq, Json.pick, Json.toNode, Shape.decoder, if_pos (by omega),
    Shape.readMembers_picked (fun o t => { t with hrp := o }) rfl rfl rfl rfl
      (Decoder.string_toNode s.hrp),
    Shape.readMembers_picked (fun o t => { t with hdPath := o }) rfl rfl rfl rfl
      s.hdPath.toJson_toNode,
    Shape.readMembers_picked (fun o t => { t with session := o }) rfl rfl rfl rfl
      (s.session.pick_toNode session inside),
    Shape.readMembers_picked (fun o t => { t with hid := o }) rfl rfl rfl rfl
      (s.hid.pick_toNode hid inside),
    List.filter_nil, memberNodes, Shape.readMembers]
  simp only [shape, getD_pickOf, restored]

theorem integral_picked : (s.picked outer session hid).Integral := by
  rw [picked_eq]
  apply Json.Integral.pick
  refine ⟨nofun, ?_⟩
  rintro value (_ | ⟨_, _ | ⟨_, _ | ⟨_, _ | ⟨_, ⟨⟩⟩⟩⟩⟩)
  · exact ⟨nofun, nofun⟩
  · exact s.hdPath.integral_toJson
  · exact s.session.integral_toJson.pick session
  · exact s.hid.integral_toJson.pick hid

/-- Settings come back from their text.  If any members are left out of it, at either level, then
what they stood for has its default, and all else comes back. -/
theorem texts_of_settings :
    ofText s.toText = .ok s ∧
      ofText (s.picked outer session hid).render = .ok (s.restored outer session hid) := by
  have part (outer session hid : String → Bool) :
      ofText (s.picked outer session hid).render = .ok (s.restored outer session hid) := by
    have decoded := Json.decode_bytes (s.integral_picked outer session hid)
      (s.picked_toNode outer session hid (by decide))
    rw [ofText, Json.render, Bytes.ofString_ofList, ← Json.bytes, decoded]
  refine ⟨?_, part outer session hid⟩
  exact part (fun _ => true) (fun _ => true) fun _ => true

/-- An object with no members stands for the default settings. -/
example : s.restored (fun _ => false) session hid = default := rfl

end Settings

end

end HardwareSigner
