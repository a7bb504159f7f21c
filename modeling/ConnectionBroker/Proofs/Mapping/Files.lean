import ConnectionBroker.Proofs.Address.Location
import ConnectionBroker.Proofs.Mapping.Layout

/-! # Mapping the address of a file

The mappers of file databases take the location of an address as the file path. What was written as
a file path comes back as one, and so does the name of a database before it.
-/

namespace ConnectionBroker

open Address

/-! ## Parts and query -/

namespace Mapper

/-- The location and the query of a file's address are its parameters. -/
theorem map_path_address (schema : Schema) {file : FileParts} (huser : file.user = none)
    (hfilepath : "filepath" ∉ file.address.query.map Prod.fst)
    (hquery : (file.address.query.map Prod.fst).Nodup) :
    Mapper.path.map schema file.address =
      .ok { entries := ("filepath", .string file.path) :: Query.entries file.address.query } := by
  have hlaidOut : Mapper.path.laidOut file.address = [("filepath", .string file.path)] := by
    simp [← given_eq, given, derived, file.location_address]
  have haddress : file.address.user = none := huser
  have hfree : (file.address.query.map Prod.fst).find?
      (· ∈ (Mapper.path.laidOut file.address).map Prod.fst) = none := by
    rw [hlaidOut, List.find?_eq_none]
    rintro name hname
    simpa using ne_of_mem_of_not_mem hname hfilepath
  have hlocated : ¬(file.address.host.getD "" = "" ∧ file.address.path = "") :=
    filepath_mem_laidOut.mp (by simp [hlaidOut])
  rw [map_eq_reading (by decide) schema hquery, reading, if_neg (by simp [haddress]), hfree]
  simp only [true_and]
  rw [if_neg fun h => hlocated ⟨h.1, h.2.1⟩, hlaidOut]
  rfl

/-- Where the query of a file's address is empty, location and user are its parameters. -/
theorem map_file_address (schema : Schema) {file : FileParts} {name : String}
    (huser : file.user = some name) (hquery : file.address.query = []) :
    Mapper.file.map schema file.address =
      .ok { entries := [("filepath", .string file.path), ("dbname", .string name)] } := by
  have haddress : file.address.user = some name := huser
  have hlaidOut : Mapper.file.laidOut file.address =
      [("filepath", .string file.path), ("dbname", .string name)] := by
    simp [← given_eq, given, derived, file.location_address, haddress]
  rw [map_eq_reading (by decide) schema (by simp [hquery]), reading, hlaidOut, hquery]
  rfl

end Mapper

/-! ## DuckDB -/

namespace Scheme

/-- The URI that the usage of DuckDB asks for. -/
def duckdbText (name path : String) : String :=
  String.ofList ("duckdb".toList ++ "://".toList ++ (encode name ++ ['@']) ++ encodePath path)

theorem isGenericScheme_duckdb : isGenericScheme "duckdb" = true := by
  decide +kernel

/-- A relative path and the name before it are mapped as they are. An absolute path is refused,
because it leaves no host for the name to stand before. -/
theorem map_duckdbText {name path : String} (hname : name ≠ "") (hpath : path ≠ "")
    (hdots : HasNoDots path) :
    if IsAbsolute path then
      Address.parse (duckdbText name path) = .error (.invalidUri .emptyHost)
    else
      ∃ address, Address.parse (duckdbText name path) = .ok address ∧
        ∀ schema, Scheme.duckdb.mapper.map schema address =
          .ok { entries := [("filepath", .string path), ("dbname", .string name)] } := by
  split
  · next habsolute => exact parse_of_isAbsolute isGenericScheme_duckdb hname habsolute
  · next hrelative =>
      let file : FileParts :=
        { scheme := "duckdb"
          user := some name
          path
          scheme_generic := isGenericScheme_duckdb
          user_ne := mt Option.some.inj hname
          path_ne := hpath
          path_noDots := hdots
          user_hosted := fun habsolute => absurd habsolute hrelative }
      have htext : duckdbText name path = file.text :=
        congrArg String.ofList (List.append_nil _).symm
      rw [htext]
      exact ⟨file.address, parse_fileText file,
        fun schema => Mapper.map_file_address schema rfl rfl⟩

/-- Of two paths after the same name, only the relative one is mapped. -/
theorem map_duckdbText_warehouse :
    (∃ address, Address.parse "duckdb://main%40eu@./data/ware%20house.duckdb" = .ok address ∧
      ∀ schema, Scheme.duckdb.mapper.map schema address =
        .ok { entries := [("filepath", .string "./data/ware house.duckdb"),
          ("dbname", .string "main@eu")] }) ∧
      Address.parse "duckdb://main%40eu@/data/ware%20house.duckdb" =
        .error (.invalidUri .emptyHost) := by
  have hname : "main@eu" ≠ "" := by decide
  have hrelative : "./data/ware house.duckdb" ≠ "" ∧ HasNoDots "./data/ware house.duckdb" := by
    decide
  have habsolute : "/data/ware house.duckdb" ≠ "" ∧ HasNoDots "/data/ware house.duckdb" := by
    decide
  exact ⟨map_duckdbText hname hrelative.1 hrelative.2,
    map_duckdbText hname habsolute.1 habsolute.2⟩

/-- A name and an absolute path without dot segments, whose URI is refused. -/
theorem parse_duckdbText_var :
    HasNoDots "/var/lib/main.duckdb" ∧
      duckdbText "main" "/var/lib/main.duckdb" = "duckdb://main@/var/lib/main.duckdb" ∧
        Address.parse "duckdb://main@/var/lib/main.duckdb" = .error (.invalidUri .emptyHost) := by
  decide +kernel

end Scheme

end ConnectionBroker
