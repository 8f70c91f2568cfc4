import TileClient.Endpoint

/-! Where the directory service answers, reduced to one spelling. -/
namespace TileClient

/-- A directory's address: a non-empty authority without slashes, and a path that starts with
one. -/
structure DirectoryAddress where
  authority : String
  path : String
  deriving DecidableEq, Repr

namespace DirectoryAddress

/-- The scheme that an address may begin with, and the only one that is understood. -/
def scheme : String := "http://"

/-- A text without one scheme at its start. -/
def dropScheme (text : List Char) : List Char :=
  if scheme.toList.isPrefixOf text then text.drop scheme.length else text

/-- An authority is a host, or a host and a port after the last colon; the host may not be
empty. -/
def isAuthority (text : List Char) : Bool :=
  match Text.splitAtLast? ':' text with
  | some (host, port) => !host.isEmpty && (Endpoint.port? port).isSome
  | none => !text.isEmpty

/-- Reads an address: the scheme may be left out, and so may the path. -/
def parse (text : String) : Except Fault DirectoryAddress :=
  let (authority, path) := Text.cutBefore '/' (dropScheme text.toList)
  if isAuthority authority then
    .ok ⟨String.ofList authority, if path.isEmpty then "/" else String.ofList path⟩
  else .error (.invalidAddress text)

def url (a : DirectoryAddress) : String := scheme ++ a.authority ++ a.path

end DirectoryAddress

end TileClient
