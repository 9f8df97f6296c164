import CommandSet.Artifacts
import CommandSet.Path
import CommandSet.Proofs.Text.Spellings
import Mathlib.Data.List.Nodup

/-!
# Where the artifacts lie

Empty names and single dots on a path lead nowhere, so paths of different spelling may lead
to one file.  The artifacts of a protocol lead to different files, below whatever directory
they are written.

Main definition:

- {lit}`Location`: where a path leads.

Main results:

- Theorem {lit}`ofPath_join`: a path below a directory goes on where the directory ends.
- Theorem {lit}`nodup_locations_render`: the artifacts of a protocol lie at different places.
-/

namespace CommandSet

/-! ## Paths -/

namespace Path

theorem pieces_ne_nil (chars : List Char) : pieces chars ≠ [] := by
  cases chars with
  | nil => simp [pieces]
  | cons c rest =>
      rw [pieces]
      split
      · simp
      · split <;> simp

/-- A slash ends one part and begins the next. -/
theorem pieces_append_slash (front rest : List Char) :
    pieces (front ++ '/' :: rest) = pieces front ++ pieces rest := by
  induction front with
  | nil => simp [pieces]
  | cons c front ih =>
      by_cases hc : (c == '/') = true
      · simp [pieces, hc, ih]
      · obtain ⟨piece, others, hfront⟩ := List.exists_cons_of_ne_nil (pieces_ne_nil front)
        simp [pieces, hc, ih, hfront]

theorem pieces_of_slash_free {chars : List Char} (h : '/' ∉ chars) : pieces chars = [chars] := by
  induction chars with
  | nil => rfl
  | cons c chars ih =>
      rw [List.mem_cons, not_or] at h
      have hc : (c == '/') = false := beq_eq_false_iff_ne.mpr (Ne.symm h.1)
      simp [pieces, hc, ih h.2]

/-- The path of a single name. -/
theorem names_of_slash_free {path : String} (h : '/' ∉ path.toList)
    (hname : isName path.toList = true) : names path = [path] := by
  simp [names, pieces_of_slash_free h, hname]

theorem names_append_slash (front rest : String) :
    names (front ++ "/" ++ rest) = names front ++ names rest := by
  have hlist : (front ++ "/" ++ rest).toList = front.toList ++ '/' :: rest.toList := by
    simp [String.toList_append]
  rw [names, hlist, pieces_append_slash, List.filter_append, List.map_append]
  rfl

/-- The names of a path below a directory are behind those of the directory. -/
theorem names_join (directory : String) {path : String} (h : isAbsolute path = false) :
    names (join directory path) = names directory ++ names path := by
  rw [join, h, Bool.or_false]
  split
  next hempty =>
      rw [String.isEmpty_iff.mp hempty]
      rfl
  next =>
      split
      next hslash =>
          obtain ⟨front, hfront⟩ := List.isSuffixOf_iff_suffix.mp hslash
          have hdirectory : directory = String.ofList front ++ "/" ++ "" := by
            rw [← String.toList_inj]
            simp [← hfront]
          have hjoined : directory ++ path = String.ofList front ++ "/" ++ path := by
            rw [hdirectory, String.append_empty]
          rw [hjoined, names_append_slash, hdirectory, names_append_slash]
          simp [names, pieces, isName]
      next => exact names_append_slash directory path

/-- A path below a directory starts where the directory starts. -/
theorem isAbsolute_join (directory : String) {path : String} (h : isAbsolute path = false) :
    isAbsolute (join directory path) = isAbsolute directory := by
  rw [join, h, Bool.or_false]
  split
  next hempty =>
      rw [String.isEmpty_iff.mp hempty]
      exact h
  next hne =>
      have hlist : directory.toList ≠ [] := by
        intro hnil
        exact hne (String.isEmpty_iff.mpr (String.toList_eq_nil_iff.mp hnil))
      obtain ⟨c, rest, hcons⟩ := List.exists_cons_of_ne_nil hlist
      split <;> simp [isAbsolute, hcons, String.toList_append, List.isPrefixOf]

end Path

/-! ## Locations -/

/-- Where a path leads: by these names, from the root or from the working directory. -/
structure Location where
  absolute : Bool
  names : List String
deriving Repr, DecidableEq

namespace Location

/-- The location that a path leads to. -/
def ofPath (path : String) : Location :=
  ⟨Path.isAbsolute path, Path.names path⟩

/-- A path below a directory goes on where the directory ends. -/
theorem ofPath_join (directory : String) {path : String} (h : Path.isAbsolute path = false) :
    ofPath (Path.join directory path) =
      ⟨Path.isAbsolute directory, Path.names directory ++ Path.names path⟩ := by
  rw [ofPath, Path.isAbsolute_join directory h, Path.names_join directory h]

end Location

/-! ## The files of a protocol -/

/-- Names of files: no slash, and more than a dot. -/
structure IsFileName (name : String) : Prop where
  slash_free : Avoids ['/'] name
  long : 1 < name.length

namespace IsFileName

variable {name : String}

theorem not_mem (h : IsFileName name) : '/' ∉ name.toList :=
  h.slash_free '/' List.mem_cons_self

theorem names_eq (h : IsFileName name) : Path.names name = [name] := by
  refine Path.names_of_slash_free h.not_mem ?_
  have hlong := h.long
  rw [← String.length_toList] at hlong
  match hname : name.toList with
  | [] | [_] => simp [hname] at hlong
  | _ :: _ :: _ => simp [Path.isName]

theorem isAbsolute_eq (h : IsFileName name) : Path.isAbsolute name = false := by
  have hfree := h.not_mem
  have hlong := h.long
  rw [← String.length_toList] at hlong
  match hname : name.toList with
  | [] => simp [hname] at hlong
  | c :: _ =>
      rw [hname, List.mem_cons, not_or] at hfree
      simp [Path.isAbsolute, hname, List.isPrefixOf, hfree.1]

end IsFileName

/-- The C files of a protocol. -/
def firmwareFiles (protocol : String) : List String :=
  [Naming.mainHeaderFile protocol, Naming.mainSourceFile protocol .a,
    Naming.mainSourceFile protocol .b, Naming.bridgeHeaderFile protocol,
    Naming.bridgeSourceFile protocol .a, Naming.bridgeSourceFile protocol .b,
    Naming.descriptorFile protocol]

/-- The Rust modules of a protocol in the directory of a role. -/
def typedFiles (protocol : String) : List String :=
  [Naming.typedBridgeModule protocol ++ ".rs", Naming.typedMainModule protocol ++ ".rs"]

/-- The directory of the Rust modules of a role. -/
def typedDirectory (role : Role) : String :=
  "rust_" ++ role.letter

variable {protocol : String}

section Lengths

theorem length_letter (role : Role) : role.letter.length = 1 := by
  cases role <;> decide

theorem length_mainHeaderFile (protocol : String) :
    (Naming.mainHeaderFile protocol).length = protocol.length + 7 := by
  have hending : "_Main.h".length = 7 := by decide
  rw [Naming.mainHeaderFile, String.length_append, hending]

theorem length_mainSourceFile (protocol : String) (role : Role) :
    (Naming.mainSourceFile protocol role).length = protocol.length + 9 := by
  have hmiddle : "_Main_".length = 6 := by decide
  have hending : ".c".length = 2 := by decide
  unfold Naming.mainSourceFile
  rw [String.length_append, String.length_append, String.length_append,
    length_letter, hmiddle, hending]

theorem length_bridgeHeaderFile (protocol : String) :
    (Naming.bridgeHeaderFile protocol).length = protocol.length + 14 := by
  have hfront : "LCSF_Bridge_".length = 12 := by decide
  have hending : ".h".length = 2 := by decide
  rw [Naming.bridgeHeaderFile, String.length_append, String.length_append, hfront, hending]
  omega

theorem length_bridgeSourceFile (protocol : String) (role : Role) :
    (Naming.bridgeSourceFile protocol role).length = protocol.length + 16 := by
  have hfront : "LCSF_Bridge_".length = 12 := by decide
  have hmiddle : "_".length = 1 := by decide
  have hending : ".c".length = 2 := by decide
  unfold Naming.bridgeSourceFile
  rw [String.length_append, String.length_append, String.length_append,
    String.length_append, length_letter, hfront, hmiddle, hending]
  omega

theorem length_descriptorFile (protocol : String) :
    (Naming.descriptorFile protocol).length = protocol.length + 12 := by
  have hfront : "LCSF_Desc_".length = 10 := by decide
  have hending : ".c".length = 2 := by decide
  rw [Naming.descriptorFile, String.length_append, String.length_append, hfront, hending]
  omega

theorem length_typedBridgeModule (protocol : String) :
    (Naming.typedBridgeModule protocol).length = (snakeCase protocol).length + 14 := by
  have hfront : "lcsf_protocol_".length = 14 := by decide
  unfold Naming.typedBridgeModule
  rw [String.length_append, hfront, Nat.add_comm]

theorem length_typedMainModule (protocol : String) :
    (Naming.typedMainModule protocol).length = (snakeCase protocol).length + 9 := by
  have hfront : "protocol_".length = 9 := by decide
  rw [Naming.typedMainModule, String.length_append, hfront, Nat.add_comm]

end Lengths

theorem isFileName_of_mem_firmwareFiles (h : IsName protocol) {name : String}
    (hname : name ∈ firmwareFiles protocol) : IsFileName name := by
  have hfree : Avoids ['/'] protocol := h.isWord.avoids_slash
  simp only [firmwareFiles, List.mem_cons, List.not_mem_nil, or_false] at hname
  constructor
  · rcases hname with rfl | rfl | rfl | rfl | rfl | rfl | rfl <;>
      (first
        | unfold Naming.mainHeaderFile | unfold Naming.mainSourceFile
        | unfold Naming.bridgeHeaderFile | unfold Naming.bridgeSourceFile
        | unfold Naming.descriptorFile) <;>
      simp only [Role.letter, avoids_append, hfree, true_and, and_true] <;>
      decide
  · rcases hname with rfl | rfl | rfl | rfl | rfl | rfl | rfl <;>
      simp only [length_mainHeaderFile, length_mainSourceFile, length_bridgeHeaderFile,
        length_bridgeSourceFile, length_descriptorFile] <;>
      omega

theorem isFileName_of_mem_typedFiles (h : IsName protocol) {name : String}
    (hname : name ∈ typedFiles protocol) : IsFileName name := by
  have hfree : Avoids ['/'] (snakeCase protocol) := (isWord_snakeCase h.isWord).avoids_slash
  simp only [typedFiles, List.mem_cons, List.not_mem_nil, or_false] at hname
  constructor
  · rcases hname with rfl | rfl <;>
      (first | unfold Naming.typedBridgeModule | unfold Naming.typedMainModule) <;>
      simp only [avoids_append, hfree, and_true] <;>
      decide
  · rcases hname with rfl | rfl <;>
      simp only [String.length_append, length_typedBridgeModule, length_typedMainModule] <;>
      omega

/-- Unequal lengths, or the letter of the role, tell the C files apart. -/
theorem nodup_firmwareFiles (protocol : String) : (firmwareFiles protocol).Nodup := by
  have hne {first second : String} (h : first.length ≠ second.length) : first ≠ second :=
    fun heq => h (congrArg String.length heq)
  have hletter : Role.a.letter ≠ Role.b.letter := by decide
  have hsource : Naming.mainSourceFile protocol .a ≠ Naming.mainSourceFile protocol .b := by
    unfold Naming.mainSourceFile
    simpa only [String.append_left_inj, String.append_right_inj, ne_eq]
  have hbridge : Naming.bridgeSourceFile protocol .a ≠ Naming.bridgeSourceFile protocol .b := by
    unfold Naming.bridgeSourceFile
    simpa only [String.append_left_inj, String.append_right_inj, ne_eq]
  simp only [firmwareFiles, List.nodup_cons, List.mem_cons, List.not_mem_nil, or_false, not_or,
    List.nodup_nil, not_false_eq_true, and_true]
  refine ⟨⟨?_, ?_, ?_, ?_, ?_, ?_⟩, ⟨hsource, ?_, ?_, ?_, ?_⟩, ⟨?_, ?_, ?_, ?_⟩, ⟨?_, ?_, ?_⟩,
    ⟨hbridge, ?_⟩, ?_⟩ <;>
    refine hne ?_ <;>
    simp only [length_mainHeaderFile, length_mainSourceFile, length_bridgeHeaderFile,
      length_bridgeSourceFile, length_descriptorFile] <;>
    omega

theorem nodup_typedFiles (protocol : String) : (typedFiles protocol).Nodup := by
  have hne : Naming.typedBridgeModule protocol ++ ".rs" ≠
      Naming.typedMainModule protocol ++ ".rs" := by
    intro heq
    have hlength := congrArg String.length heq
    rw [String.length_append, String.length_append, length_typedBridgeModule,
      length_typedMainModule] at hlength
    omega
  simp [typedFiles, hne]

/-! ## Rendered paths -/

/-- The files of a protocol by their paths. -/
def artifactPaths (protocol : String) (typed : Bool) : List String :=
  firmwareFiles protocol ++
    if typed then
      Role.both.flatMap fun role => (typedFiles protocol).map (typedDirectory role ++ "/" ++ ·)
    else []

theorem map_path_render (prepared : Prepared) (recovered : Recovered) (typed : Bool) :
    (render prepared recovered typed).map (·.path) =
      artifactPaths prepared.protocol.name typed := by
  have hfirmware : (renderFirmware prepared recovered).map (·.path) =
      firmwareFiles prepared.protocol.name := rfl
  have htyped (role : Role) : (renderTyped prepared role).map (·.path) =
      (typedFiles prepared.protocol.name).map (typedDirectory role ++ "/" ++ ·) := by
    simp [renderTyped, typedFiles, typedDirectory, String.append_assoc]
  rw [render, List.map_append, hfirmware, artifactPaths]
  cases typed with
  | false => rfl
  | true => simp [List.map_flatMap, htyped]

theorem mem_artifactPaths {typed : Bool} {path : String}
    (h : path ∈ artifactPaths protocol typed) :
    path ∈ firmwareFiles protocol ∨
      ∃ role, ∃ name ∈ typedFiles protocol, path = typedDirectory role ++ "/" ++ name := by
  rw [artifactPaths, List.mem_append] at h
  refine h.imp_right fun h => ?_
  cases typed with
  | false => exact absurd h List.not_mem_nil
  | true =>
      obtain ⟨role, -, hrole⟩ := List.mem_flatMap.mp h
      obtain ⟨name, hname, rfl⟩ := List.mem_map.mp hrole
      exact ⟨role, name, hname, rfl⟩

/-- Artifacts lie below the directory that they are written to. -/
theorem isAbsolute_of_mem_artifactPaths (h : IsName protocol) (typed : Bool) {path : String}
    (hpath : path ∈ artifactPaths protocol typed) : Path.isAbsolute path = false := by
  rcases mem_artifactPaths hpath with hfile | ⟨role, name, -, rfl⟩
  · exact (isFileName_of_mem_firmwareFiles h hfile).isAbsolute_eq
  · cases role <;>
      simp [Path.isAbsolute, typedDirectory, Role.letter, String.toList_append, List.isPrefixOf]

/-- A Rust module lies in the directory of its role. -/
theorem names_typedFile (h : IsName protocol) (role : Role) {name : String}
    (hname : name ∈ typedFiles protocol) :
    Path.names (typedDirectory role ++ "/" ++ name) = [typedDirectory role, name] := by
  have hdirectory : IsFileName (typedDirectory role) := by
    cases role <;> exact ⟨by decide, by decide⟩
  rw [Path.names_append_slash, hdirectory.names_eq,
    (isFileName_of_mem_typedFiles h hname).names_eq, List.singleton_append]

theorem map_names_firmwareFiles (h : IsName protocol) :
    (firmwareFiles protocol).map Path.names = (firmwareFiles protocol).map ([·]) :=
  List.map_congr_left fun _ hname => (isFileName_of_mem_firmwareFiles h hname).names_eq

theorem map_names_typedFiles (h : IsName protocol) (role : Role) :
    ((typedFiles protocol).map (typedDirectory role ++ "/" ++ ·)).map Path.names =
      (typedFiles protocol).map ([typedDirectory role, ·]) := by
  rw [List.map_map]
  exact List.map_congr_left fun _ hname => names_typedFile h role hname

/-- The number of names and the directory of the role tell the two kinds of files apart. -/
theorem nodup_map_names_artifactPaths (h : IsName protocol) (typed : Bool) :
    ((artifactPaths protocol typed).map Path.names).Nodup := by
  have hfirmware : ((firmwareFiles protocol).map ([·])).Nodup :=
    List.Nodup.map (fun _ _ heq => List.singleton_inj.mp heq) (nodup_firmwareFiles protocol)
  have htyped (role : Role) : ((typedFiles protocol).map ([typedDirectory role, ·])).Nodup :=
    List.Nodup.map (fun _ _ heq => by simpa using heq) (nodup_typedFiles protocol)
  have hroles : typedDirectory .a ≠ typedDirectory .b := by decide
  rw [artifactPaths, List.map_append, map_names_firmwareFiles h]
  cases typed with
  | false => simpa using hfirmware
  | true =>
      simp only [Role.both, if_true, List.flatMap_cons, List.flatMap_nil, List.append_nil,
        List.map_append, map_names_typedFiles h]
      refine hfirmware.append ((htyped .a).append (htyped .b) ?_) ?_
      · simp [List.disjoint_left, hroles.symm]
      · simp [List.disjoint_left]

/-- The artifacts of a protocol lie at different places. -/
theorem nodup_locations_render {prepared : Prepared} (h : IsName prepared.protocol.name)
    (recovered : Recovered) (typed : Bool) (directory : String) :
    ((render prepared recovered typed).map fun file =>
      Location.ofPath (Path.join directory file.path)).Nodup := by
  have hlocations : (render prepared recovered typed).map (fun file =>
      Location.ofPath (Path.join directory file.path)) =
      ((artifactPaths prepared.protocol.name typed).map Path.names).map fun names =>
        ⟨Path.isAbsolute directory, Path.names directory ++ names⟩ := by
    rw [← map_path_render prepared recovered typed, List.map_map, List.map_map]
    refine List.map_congr_left fun file hfile => Location.ofPath_join directory ?_
    refine isAbsolute_of_mem_artifactPaths h typed ?_
    rw [← map_path_render prepared recovered typed]
    exact List.mem_map_of_mem hfile
  rw [hlocations]
  refine List.Nodup.map (fun first second heq => ?_) (nodup_map_names_artifactPaths h typed)
  exact List.append_cancel_left (Location.mk.inj heq).2

end CommandSet
