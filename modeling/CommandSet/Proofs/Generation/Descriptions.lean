import CommandSet.Proofs.Firmware.Remarks
import CommandSet.Proofs.Typed.Undescribed

/-!
# Descriptions in generated code

Descriptions are copied into comments of the main header and of the main modules as they are.
Two protocols that differ in nothing but descriptions have the same code besides comments, as
long as no description holds what ends the kind of comment it is shown in.

Main results:

- Theorem {lit}`Typed.alike_mainModule`: a main module in Rust is like the one without
  descriptions.
- Theorem {lit}`ink_eq_of_undescribed`: two protocols that differ in descriptions.
- Theorem {lit}`ink_ne_valve`: a description that goes on behind its line.
-/

namespace CommandSet

open CommentMode
open Text (unlines)

/-! ## Main modules in Rust -/

namespace Typed

/-- The comment above the handler of a command. -/
def titleLine (command description : String) : String :=
  "/// Execute command " ++ command ++
    if description.isEmpty then "" else " (" ++ description ++ ")"

theorem toList_titleLine (command description : String) :
    (titleLine command description).toList = '/' :: '/' :: ("/ Execute command " ++ command ++
      if description.isEmpty then "" else " (" ++ description ++ ")").toList := by
  unfold titleLine
  simp only [String.toList_append, String.reduceToList, List.cons_append]

/-- It leaves no code if the description stays on its line. -/
theorem scan_titleLine {command description : String} (hcommand : IsName command)
    (h : '\n' ∉ description.toList) :
    scanLines false code [titleLine command description] = (code, ['\n']) := by
  have hname : Avoids ['\n'] command := hcommand.isWord.avoids
    (List.forall_mem_singleton.mpr (by decide))
  have hword : '\n' ∉ command.toList := hname _ List.mem_cons_self
  have hcomment : '\n' ∉ ("/ Execute command " ++ command ++
      if description.isEmpty then "" else " (" ++ description ++ ")").toList := by
    split <;> simp [hword, h]
  have hscan := @scan_remark false _ _ List.not_mem_nil hcomment
  rw [scanLines_singleton, toList_titleLine]
  simpa only [List.nil_append] using hscan

/-- A handler is like the one without a description. -/
theorem alike_handler {handler : Handler} (hcommand : IsName handler.command)
    (h : '\n' ∉ handler.description.toList) :
    Alike false code handler.lines handler.undescribed.lines := by
  have htitle : Alike false code [titleLine handler.command handler.description]
      [titleLine handler.command ""] := by
    rw [Alike, scan_titleLine hcommand h, scan_titleLine hcommand (by decide)]
    exact ⟨rfl, rfl⟩
  exact (htitle.append (.refl _ _ _)).append (.refl _ _ _)

/-- A main module is like the one without descriptions if no description of a command goes on
behind its line. -/
theorem alike_mainModule {protocol : Protocol} (hwell : WellFormed protocol) {role : Role}
    (h : ∀ cmd ∈ protocol.received role, '\n' ∉ cmd.description.toList) :
    Alike false code (MainModule.build (Prepared.ofProtocol protocol) role).lines
      (MainModule.build (Prepared.ofProtocol protocol).undescribed role).lines := by
  have hhandlers : Alike false code
      ((MainModule.build (Prepared.ofProtocol protocol) role).handlers.flatMap Handler.lines)
      (((MainModule.build (Prepared.ofProtocol protocol) role).handlers.map
        Handler.undescribed).flatMap Handler.lines) := by
    rw [List.flatMap_map]
    refine alike_flatMap (· = code) ?_ ?_ rfl <;> rintro handler hhandler mode rfl
    · exact scanLines_false _
    · obtain ⟨cmd, hcmd, rfl⟩ := List.mem_map.mp hhandler
      exact alike_handler (hwell.command_names cmd (List.mem_of_mem_filter hcmd)) (h cmd hcmd)
  have hitems (module : MainModule) : MainModule.importedItems
      { module with handlers := module.handlers.map Handler.undescribed } =
        module.importedItems := by
    simp [MainModule.importedItems, List.filterMap_map, Function.comp_def, Handler.undescribed]
  rw [mainModule_undescribed, MainModule.lines, MainModule.lines, hitems]
  refine (((Alike.append (.refl _ _ _) ?_).append (.refl _ _ _)).append (.refl _ _ _)).append
    (.refl _ _ _)
  rw [scanLines_false]
  exact hhandlers

end Typed

/-! ## Protocols that differ in descriptions -/

/-- Protocols that are the same without descriptions have files of the same ink if each file is
like the one without descriptions. -/
theorem ink_eq_of_alike {blocks : Bool} (lines : Prepared → List String) {first second : Prepared}
    (h : first.undescribed = second.undescribed)
    (hfirst : Alike blocks code (lines first) (lines first.undescribed))
    (hsecond : Alike blocks code (lines second) (lines second.undescribed)) :
    ink blocks (unlines (lines first)) = ink blocks (unlines (lines second)) := by
  rw [h] at hfirst
  exact hfirst.ink_eq.trans hsecond.ink_eq.symm

/-- Two protocols that differ in nothing but descriptions have the same files besides comments
and white space: the main header if no description of an attribute breaks its line, a main module
if no description of a received command closes the comment above its handler, a main module in
Rust if none breaks its line, and all other files as they are. -/
theorem ink_eq_of_undescribed {p q : Protocol} {first second : Prepared}
    (hfirst : prepare p = .ok first) (hsecond : prepare q = .ok second)
    (h : p.undescribed = q.undescribed) :
    ((∀ protocol ∈ [p, q], ∀ att ∈ protocol.attributes, '\n' ∉ att.description.toList) →
        ink true (Firmware.MainHeader.build first none).text =
          ink true (Firmware.MainHeader.build second none).text) ∧
      (∀ role, (∀ protocol ∈ [p, q], ∀ cmd ∈ protocol.received role,
          ¬['*', '/'] <:+: cmd.description.toList) →
        ink true (Firmware.MainModule.build first role none).text =
          ink true (Firmware.MainModule.build second role none).text) ∧
      (∀ role, (∀ protocol ∈ [p, q], ∀ cmd ∈ protocol.received role,
          '\n' ∉ cmd.description.toList) →
        ink false (Typed.MainModule.build first role).text =
          ink false (Typed.MainModule.build second role).text) ∧
      Firmware.BridgeHeader.build first = Firmware.BridgeHeader.build second ∧
      Firmware.Descriptor.build first = Firmware.Descriptor.build second ∧
      ∀ role, Firmware.Bridge.build first role = Firmware.Bridge.build second role ∧
        Typed.Bridge.build first role = Typed.Bridge.build second role := by
  obtain ⟨rfl, hp⟩ := wellFormed_of_prepare hfirst
  obtain ⟨rfl, hq⟩ := wellFormed_of_prepare hsecond
  have herased : (Prepared.ofProtocol p).undescribed = (Prepared.ofProtocol q).undescribed := by
    rw [← ofProtocol_undescribed, h, ofProtocol_undescribed]
  refine ⟨fun hlines => ?_, fun role hclosed => ?_, fun role hlines => ?_, ?_, ?_,
    fun role => ⟨?_, ?_⟩⟩
  · exact ink_eq_of_alike (fun prepared => (Firmware.MainHeader.build prepared none).lines) herased
      (Firmware.alike_mainHeader hp (hlines p (by simp)))
      (Firmware.alike_mainHeader hq (hlines q (by simp)))
  · exact ink_eq_of_alike (fun prepared => (Firmware.MainModule.build prepared role none).lines)
      herased (Firmware.alike_mainModule hp (hclosed p (by simp)))
      (Firmware.alike_mainModule hq (hclosed q (by simp)))
  · exact ink_eq_of_alike (fun prepared => (Typed.MainModule.build prepared role).lines) herased
      (Typed.alike_mainModule hp (hlines p (by simp)))
      (Typed.alike_mainModule hq (hlines q (by simp)))
  · rw [← Firmware.bridgeHeader_undescribed, herased, Firmware.bridgeHeader_undescribed]
  · rw [← Firmware.descriptor_undescribed, herased, Firmware.descriptor_undescribed]
  · rw [← Firmware.bridge_undescribed, herased, Firmware.bridge_undescribed]
  · rw [← Typed.bridge_undescribed, herased, Typed.bridge_undescribed]

private def valve (action angle : String) : Protocol :=
  ⟨"Valve", 3, [⟨"Open", 1, .aToB, [⟨"Angle", 1, true, .uint8, [], angle⟩], action⟩]⟩

/-- Descriptions with slashes and stars that stay in their comments. -/
theorem ink_valve :
    ink true (Firmware.MainHeader.build
        (Prepared.ofProtocol (valve "open/close * 2" "0 // closed, */ open")) none).text =
      ink true (Firmware.MainHeader.build (Prepared.ofProtocol (valve "" "degrees")) none).text ∧
    ink true (Firmware.MainModule.build
        (Prepared.ofProtocol (valve "open/close * 2" "0 // closed, */ open")) .b none).text =
      ink true (Firmware.MainModule.build (Prepared.ofProtocol (valve "" "degrees")) .b none).text ∧
    ink false (Typed.MainModule.build
        (Prepared.ofProtocol (valve "open/close * 2" "0 // closed, */ open")) .b).text =
      ink false (Typed.MainModule.build (Prepared.ofProtocol (valve "" "degrees")) .b).text := by
  have hall := ink_eq_of_undescribed
    (rfl : prepare (valve "open/close * 2" "0 // closed, */ open") = _)
    (rfl : prepare (valve "" "degrees") = _) rfl
  exact ⟨hall.1 (by decide), hall.2.1 .b (by decide), hall.2.2.1 .b (by decide)⟩

/-! ## A description of two lines -/

/-- Where a main module in Rust shows the description of its only command. -/
private theorem lines_valve (action : String) :
    (Typed.MainModule.build (Prepared.ofProtocol (valve action "")) .b).lines =
      (Typed.MainModule.build (Prepared.ofProtocol (valve "" "")) .b).lines.take 8 ++
        [Typed.titleLine "Open" action] ++
        (Typed.MainModule.build (Prepared.ofProtocol (valve "" "")) .b).lines.drop 9 :=
  rfl

/-- A description with a line break is accepted, and what is behind the break is code. -/
theorem ink_ne_valve :
    prepare (valve "Go\nslowly" "") = .ok (Prepared.ofProtocol (valve "Go\nslowly" "")) ∧
      prepare (valve "" "") = .ok (Prepared.ofProtocol (valve "" "")) ∧
      (valve "Go\nslowly" "").undescribed = (valve "" "").undescribed ∧
      ink false (Typed.MainModule.build (Prepared.ofProtocol (valve "Go\nslowly" "")) .b).text ≠
        ink false (Typed.MainModule.build (Prepared.ofProtocol (valve "" "")) .b).text := by
  -- Both modules are the same but for one line, so it is enough to read that line.
  refine ⟨rfl, rfl, rfl, fun hink => ?_⟩
  rw [Typed.MainModule.text, Typed.MainModule.text, lines_valve "Go\nslowly",
    lines_valve ""] at hink
  have halike := (ink_eq_iff_alike (by rw [scanLines_false]; decide)).mp hink
  rw [scanLines_false] at halike
  exact absurd halike.2 (by decide)

end CommandSet
