import DualShell.Family
import DualShell.Label

/-!
Tokens stand in portable text for what the two families write differently: separators, common
commands, references to variables, and the frame of a script. Each token has a name, under which a
placeholder refers to it, and one literal for each family.
-/

namespace DualShell

inductive Token where
  | fileSeparator
  | listSeparator
  | lineFeed
  | scriptSuffix
  | sourceCommand
  | commentLeader
  | allArguments
  | referenceOpen
  | referenceClose
  | returnCommand
  | exitCommand
  | exportCommand
  | temporaryDirectory
  | userName
  | rootDirectory
  | closeStream
  | makeDirectory
  | removeFile
  | changeDirectory
  | printFile
  | pathVariable
  | javaHomeVariable
  | libraryPathVariable
  | beginScript
  | endScript
  | beginFunctions
  | endFunctions
  deriving DecidableEq, Repr

namespace Token

def all : List Token :=
  [.fileSeparator, .listSeparator, .lineFeed, .scriptSuffix, .sourceCommand, .commentLeader,
    .allArguments, .referenceOpen, .referenceClose, .returnCommand, .exitCommand, .exportCommand,
    .temporaryDirectory, .userName, .rootDirectory, .closeStream, .makeDirectory, .removeFile,
    .changeDirectory, .printFile, .pathVariable, .javaHomeVariable, .libraryPathVariable,
    .beginScript, .endScript, .beginFunctions, .endFunctions]

/-- The name a placeholder gives between its braces. -/
def name : Token → Text
  | .fileSeparator => "fs"
  | .listSeparator => "ps"
  | .lineFeed => "lf"
  | .scriptSuffix => "sh"
  | .sourceCommand => "source"
  | .commentLeader => "rem"
  | .allArguments => "args"
  | .referenceOpen => "varl"
  | .referenceClose => "varr"
  | .returnCommand => "return"
  | .exitCommand => "exit"
  | .exportCommand => "export"
  | .temporaryDirectory => "temp"
  | .userName => "uid"
  | .rootDirectory => "root"
  | .closeStream => "closeFd"
  | .makeDirectory => "md"
  | .removeFile => "rm"
  | .changeDirectory => "cd"
  | .printFile => "cat"
  | .pathVariable => "pathVariable"
  | .javaHomeVariable => "javaHomeVariable"
  | .libraryPathVariable => "libraryPathVariable"
  | .beginScript => "beginScript"
  | .endScript => "endScript"
  | .beginFunctions => "beginFunctions"
  | .endFunctions => "endFunctions"

def ofName? (name : Text) : Option Token := all.find? (·.name = name)

def unixLiteral : Token → Text
  | .fileSeparator => "/"
  | .listSeparator => ":"
  | .lineFeed => Family.unix.lineEnd
  | .scriptSuffix => "sh"
  | .sourceCommand => "."
  | .commentLeader => "#"
  | .allArguments => "$@"
  | .referenceOpen => "$"
  | .referenceClose => ""
  | .returnCommand => "return"
  | .exitCommand => "exit"
  | .exportCommand => "export"
  | .temporaryDirectory => "/tmp"
  | .userName => "$USER"
  | .rootDirectory => "/"
  | .closeStream => ">&-"
  | .makeDirectory => "mkdir -p"
  | .removeFile => "rm -f"
  | .changeDirectory => "cd"
  | .printFile => "cat"
  | .pathVariable => "PATH"
  | .javaHomeVariable => "JAVA_HOME"
  | .libraryPathVariable => "LD_LIBRARY_PATH"
  | .beginScript => Family.unix.block ["#!/bin/sh", "set +u"]
  | .endScript => Family.unix.line "exit $?"
  | .beginFunctions => ""
  | .endFunctions => ""

def windowsLiteral : Token → Text
  | .fileSeparator => "\\"
  | .listSeparator => ";"
  | .lineFeed => Family.windows.lineEnd
  | .scriptSuffix => "cmd"
  | .sourceCommand => "@call"
  | .commentLeader => "@rem"
  | .allArguments => "%*"
  | .referenceOpen => "%"
  | .referenceClose => "%"
  | .returnCommand => "exit /b"
  | .exitCommand => "exit /b"
  | .exportCommand => "set"
  | .temporaryDirectory => "%TEMP%"
  | .userName => "%USERNAME%"
  | .rootDirectory => "c:\\"
  | .closeStream => ">NUL"
  | .makeDirectory => "md"
  | .removeFile => "del /F /Q"
  | .changeDirectory => "cd /d"
  | .printFile => "type"
  | .pathVariable => "PATH"
  | .javaHomeVariable => "JAVA_HOME"
  | .libraryPathVariable => "PATH"
  | .beginScript => Family.windows.line "@echo off"
  | .endScript => Family.windows.line "exit /b %ERRORLEVEL%"
  | .beginFunctions => Family.windows.line ("GOTO " ++ Label.functionEnd)
  | .endFunctions => Family.windows.line (':' :: Label.functionEnd)

/-- What a family writes for the token. -/
def literal (token : Token) : Family → Text
  | .unix => token.unixLiteral
  | .windows => token.windowsLiteral

def placeholder (token : Token) : Text := '{' :: token.name ++ ['}']

theorem mem_all (token : Token) : token ∈ all := by
  cases token <;> simp [all]

theorem ofName?_name (token : Token) : ofName? token.name = some token := by
  cases token <;> decide +kernel

end Token

/-- A portable reference to a shell variable. -/
def portableReference (name : Text) : Text :=
  Token.referenceOpen.placeholder ++ name ++ Token.referenceClose.placeholder

end DualShell
