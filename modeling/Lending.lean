import Lending.Applicant
import Lending.Arguments
import Lending.Command
import Lending.Configuration
import Lending.Context
import Lending.DataError
import Lending.Dict
import Lending.Digest
import Lending.Document
import Lending.Engine.Decision
import Lending.Engine.Engine
import Lending.Engine.Explanation
import Lending.Engine.Simulation
import Lending.Failure
import Lending.Form.Faults
import Lending.Form.Members
import Lending.Form.Outcomes
import Lending.Form.Policies
import Lending.Form.Records
import Lending.Form.Reports
import Lending.Form.Rules
import Lending.Json.Layout
import Lending.Json.Number
import Lending.Json.Reader
import Lending.Json.Writer
import Lending.Main
import Lending.Number
import Lending.Operator
import Lending.Path
import Lending.Policy.Bundle
import Lending.Policy.Members
import Lending.Policy.ReadError
import Lending.Policy.RuleDocument
import Lending.Policy.Sections
import Lending.Policy.Source
import Lending.Policy.StrategyDocument
import Lending.Policy.TreeDocument
import Lending.PolicyError
import Lending.Proofs.Checks
import Lending.Proofs.Configuration
import Lending.Proofs.Engine.Parity
import Lending.Proofs.Number.Quotient
import Lending.Proofs.Tree.Label
import Lending.Proofs.Tree.Lineage
import Lending.Proofs.Tree.Route
import Lending.Proofs.Tree.Sound
import Lending.Proofs.Tree.Walk
import Lending.Record
import Lending.Rule
import Lending.Rule.Catalog
import Lending.Rule.Evaluation
import Lending.Settings
import Lending.Settings.Address
import Lending.Settings.Entry
import Lending.Settings.File
import Lending.Settings.Ini
import Lending.Settings.Json5
import Lending.Settings.Ron
import Lending.Settings.Scanner
import Lending.Settings.Toml
import Lending.Settings.Yaml
import Lending.Split
import Lending.Strategy
import Lending.Strategy.Execution
import Lending.Text
import Lending.Text.Capital
import Lending.Text.Edit
import Lending.Threshold
import Lending.Tree.Arena
import Lending.Tree.Branching
import Lending.Tree.Node
import Lending.Tree.Routing
import Lending.Value
import Lending.Warning
import Lending.Yaml.Composition
import Lending.Yaml.Cursor
import Lending.Yaml.Node
import Lending.Yaml.Plain
import Lending.Yaml.Scalar
import Lending.Yaml.Stream
import Lending.Yaml.Tag
import Lending.Yaml.Token
import Lending.Yaml.Written
import Lending.Proofs.Threshold
import Lending.Proofs.Rule.Failure
import Lending.Proofs.Strategy.DualPath
import Lending.Proofs.Strategy.Gate
import Lending.Proofs.Engine.Counting
import Lending.Proofs.Engine.Impact
import Lending.Proofs.Engine.Batches
import Lending.Proofs.Rule.Aggregate
import Lending.Proofs.Engine.Explanation
import Lending.Proofs.Strategy.Trace
import Lending.Proofs.Policy.Sections
import Lending.Proofs.Tree.Arrangement
import Lending.Proofs.Tree.Reading
import Lending.Proofs.Form.Members
import Lending.Proofs.Json.Kept
import Lending.Proofs.Form.Plain
import Lending.Proofs.Policy.Members
import Lending.Proofs.Policy.TreeDocument
import Lending.Proofs.Json.Scan
import Lending.Proofs.Json.Text
import Lending.Proofs.Form.Bundles
import Lending.Proofs.Engine.Accounts
import Lending.Proofs.Record
import Lending.Proofs.Bucket
import Lending.Proofs.Engine.WhatIf
import Lending.Proofs.Engine.Ramp
import Lending.Proofs.Policy.Sources
import Lending.Proofs.Rule.Resolution
import Lending.Proofs.Tree.Marking
import Lending.Proofs.Tree.Circles
import Lending.Proofs.Policy.StrategyDocument
import Lending.Proofs.Number.Order
import Lending.Proofs.Rule.Switch
import Lending.Proofs.Policy.Referral
import Lending.Proofs.Strategy.Sequential
import Lending.Proofs.Rule.Loosening
import Lending.Proofs.Engine.Loosening
import Lending.Proofs.Number.Rank
import Lending.Proofs.Strategy.Bands
import Lending.Proofs.Strategy.Reordering
import Lending.Proofs.Tree.Missing
import Lending.Proofs.Tree.Bands
import Lending.Proofs.Comparison
import Lending.Proofs.Text.Keyword
import Lending.Proofs.Matching
import Lending.Proofs.Rule.Compound
import Lending.Proofs.Rule.Kinds
import Lending.Proofs.Number.Difference
import Lending.Proofs.Number.Count
import Lending.Proofs.Rule.Benchmark
import Lending.Proofs.Tree.Links
import Lending.Proofs.Tree.Arena
import Lending.Proofs.Json.Flag
import Lending.Proofs.Override
import Lending.Proofs.Lens
import Lending.Proofs.Tree.Strays
import Lending.Proofs.Text.Edit
